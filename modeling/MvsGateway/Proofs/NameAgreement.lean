import Mathlib.Data.List.Basic
import MvsGateway.Proofs.Catalog.Scope
import MvsGateway.Proofs.EmptyName
import MvsGateway.Proofs.Envelope
import MvsGateway.Proofs.Request.DataSetAddress

/-!
# One name on both sides

A path is read where the request comes in, and the name that it gives is read
again by the host. Both readers find the same data set and the same member, up
to letter case and the white space in front of the name. So what a reply
reports is what the host acted on, and a volume in front changes neither.
-/

namespace MvsGateway

open Host (Call Dsn Output)

/-! ## Reading a name again -/

namespace Host.Dsn

/-- A text without parentheses is the name of a data set as a whole. -/
theorem ofText_of_not_mem {s : String} (h : '(' ∉ s.toList) :
    ofText s = ⟨Text.upper (Text.trim s), none⟩ := by
  have hopen : '(' ∉ (Text.upper (Text.trim s)).toList := by
    rw [Text.toList_upper, Chars.mem_map_toUpper_iff (by decide), Text.toList_trim]
    exact fun hmem => h (Chars.mem_of_mem_trim hmem)
  unfold ofText
  simp only [Chars.cutAt_of_not_mem hopen]

end Host.Dsn

namespace Target

variable {s part lead : List Char} {t : Target} {raw dsn volume : String}

/-- The host finds what is written, up to letter case and the white space in
front. -/
theorem IsWritten.ofText_eq (h : IsWritten part t)
    (hlast : ∀ c ∈ part.getLast?, Chars.isBlank c = false) :
    ∃ name dsn, t.dataSetName? = some name ∧ t.dsn? = some dsn ∧
      Dsn.ofText dsn = ⟨Text.upper (Text.trimStart name), t.memberName?.map Text.upper⟩ := by
  cases h with
  | dataSet hname =>
    refine ⟨String.ofList part, String.ofList part, rfl, rfl, ?_⟩
    rw [Dsn.ofText_of_not_mem hname.open_not_mem, Text.trim, Text.trimStart, String.toList_ofList,
      Chars.trim_eq_trimStart hlast]
    rfl
  | slash hname _ => exact ⟨_, _, rfl, rfl, Dsn.ofText_member_text hname.open_not_mem _⟩
  | parentheses hname _ => exact ⟨_, _, rfl, rfl, Dsn.ofText_member_text hname.open_not_mem _⟩

theorem ofText_of_path (h : ofDataSetPath raw = .ok t) :
    ∃ name dsn, t.dataSetName? = some name ∧ t.dsn? = some dsn ∧
      Dsn.ofText dsn = ⟨Text.upper (Text.trimStart name), t.memberName?.map Text.upper⟩ := by
  have hlast := isBlank_last_dataSetPart raw
  rcases isWritten_of_path h with ⟨hwritten, _⟩ | ⟨volume, inner, rfl, hwritten⟩
  · exact hwritten.ofText_eq hlast
  · exact hwritten.ofText_eq hlast

/-! ## Volumes in front -/

theorem IsWritten.ne_nil (h : IsWritten part t) : part ≠ [] := by
  obtain ⟨_, c, _, hfirst, _⟩ := h.first
  rintro rfl
  cases hfirst

theorem isReserved_of_isBlank {c : Char} (h : Chars.isBlank c = true) : isReserved c = false := by
  rw [Bool.eq_false_iff]
  intro hreserved
  simp only [isReserved, Bool.or_eq_true, beq_iff_eq] at hreserved
  rcases hreserved with (rfl | rfl) | rfl
  all_goals exact absurd h (by decide)

theorem IsPart.blank_append (h : IsPart s) (hlead : ∀ c ∈ lead, Chars.isBlank c = true) :
    IsPart (lead ++ s) where
  nonEmpty := List.append_ne_nil_of_right_ne_nil lead h.nonEmpty
  plain c hc := by
    rcases List.mem_append.1 hc with hc | hc
    · exact isReserved_of_isBlank (hlead c hc)
    · exact h.plain c hc

theorem trimStart_blank_append (hlead : ∀ c ∈ lead, Chars.isBlank c = true) (s : List Char) :
    Text.trimStart (String.ofList (lead ++ s)) = Text.trimStart (String.ofList s) := by
  rw [Text.trimStart, Text.trimStart, String.toList_ofList, String.toList_ofList, Chars.trimStart,
    List.dropWhile_append_of_pos hlead, Chars.trimStart]

/-- White space in front becomes part of the name. -/
theorem IsWritten.blank_append (h : IsWritten part t)
    (hlead : ∀ c ∈ lead, Chars.isBlank c = true) :
    ∃ u, IsWritten (lead ++ part) u ∧ u.memberName? = t.memberName? ∧
      u.dataSetName?.map Text.trimStart = t.dataSetName?.map Text.trimStart := by
  cases h with
  | dataSet hname =>
    refine ⟨_, .dataSet (hname.blank_append hlead), rfl, ?_⟩
    exact congrArg some (trimStart_blank_append hlead _)
  | slash hname hinner =>
    rename_i name inner
    refine ⟨.member (String.ofList (lead ++ name)) (String.ofList inner), ?_, rfl, ?_⟩
    · rw [← List.append_assoc]
      exact .slash (hname.blank_append hlead) hinner
    · exact congrArg some (trimStart_blank_append hlead _)
  | parentheses hname hinner =>
    rename_i name inner
    refine ⟨.member (String.ofList (lead ++ name)) (String.ofList inner), ?_, rfl, ?_⟩
    · rw [← List.append_assoc]
      exact .parentheses (hname.blank_append hlead) hinner
    · exact congrArg some (trimStart_blank_append hlead _)

/-- A path may have any volume put in front that does not end early. It is the
path of the same member then, and of the same data set for the host. -/
theorem path_behind_volume (h : ofDataSetPath raw = .ok t) (hplain : t.volume? = none)
    (hvolume : volume ≠ "") (hend : ¬[')', '/'] <:+: volume.toList) :
    ∃ u, ofDataSetPath ("-(" ++ volume ++ ")/" ++ raw) = .ok (.onVolume volume u) ∧
      u.memberName? = t.memberName? ∧
      u.dataSetName?.map Text.trimStart = t.dataSetName?.map Text.trimStart := by
  have hwritten : IsWritten (Chars.trim raw.toList) t := by
    rcases isAddress_iff.1 (path_eq_ok_iff.1 h) with ⟨hwritten, _⟩ | ⟨_, _, _, _, _, _, _, rfl⟩
    · exact hwritten
    · cases hplain
  have hlast := (Chars.isBlank_ends_trim raw.toList).2
  obtain ⟨lead, tail, hraw, hlead, htail⟩ := Chars.eq_append_stripBy Chars.isBlank raw.toList
  rw [← Chars.trim_eq_stripBy] at hraw
  generalize Chars.trim raw.toList = part at hwritten hlast hraw
  obtain ⟨u, hportion, hmember, hname⟩ := hwritten.blank_append hlead
  refine ⟨u, ?_, hmember, hname⟩
  -- The white space in front of the path is inside the new one, that behind it
  -- is still outside.
  have htrim : Chars.trim ("-(" ++ volume ++ ")/" ++ raw).toList =
      '-' :: '(' :: (volume.toList ++ ')' :: '/' :: (lead ++ part)) := by
    have htext : ("-(" ++ volume ++ ")/" ++ raw).toList =
        [] ++ ('-' :: '(' :: (volume.toList ++ ')' :: '/' :: (lead ++ part)) ++ tail) := by
      simp [hraw]
    have hback : ('-' :: '(' :: (volume.toList ++ ')' :: '/' :: (lead ++ part))).getLast? =
        part.getLast? := by
      have hsplit := List.getLast?_append_of_ne_nil
        ('-' :: '(' :: (volume.toList ++ ')' :: '/' :: lead)) hwritten.ne_nil
      simpa using hsplit
    rw [htext, Chars.trim_eq_stripBy]
    refine Chars.stripBy_around (List.cons_ne_nil _ _) ?_ ?_ nofun htail
    · rintro c ⟨⟩
      decide
    · rw [hback]
      exact hlast
  have haddress : IsAddress (Chars.trim ("-(" ++ volume ++ ")/" ++ raw).toList)
      (.onVolume (String.ofList volume.toList) u) := by
    rw [htrim]
    exact .onVolume (by simpa using hvolume) hend hportion
  rw [String.ofList_toList] at haddress
  exact path_eq_ok_iff.2 haddress

end Target

/-! ## Names in replies -/

namespace Reply

/-- The reply reports this data set, and this member or none. -/
structure Names (reply : Reply) (name : String) (member : Option String) : Prop where
  dataSet : reply.body.get? "datasetName" = some (.string name)
  member : reply.body.get? "memberName" = member.map .string

/-- The fields report no data set and no member. -/
def IsNameless (fields : List (String × Json)) : Prop :=
  ∀ field ∈ fields, field.1 ∉ ["datasetName", "memberName"]

@[simp] theorem isNameless_nil : IsNameless [] := nofun

@[simp] theorem isNameless_cons {field : String × Json} {fields : List (String × Json)} :
    IsNameless (field :: fields) ↔
      field.1 ∉ ["datasetName", "memberName"] ∧ IsNameless fields :=
  List.forall_mem_cons

@[simp] theorem isNameless_append {fields later : List (String × Json)} :
    IsNameless (fields ++ later) ↔ IsNameless fields ∧ IsNameless later :=
  List.forall_mem_append

theorem get?_of_isNameless {fields : List (String × Json)} {name : String}
    (h : IsNameless fields) (hname : name ∈ ["datasetName", "memberName"]) :
    (Json.Fields.ofList fields).get? name = none := by
  apply Json.Fields.get?_ofList_eq_none
  rintro field hfield rfl
  exact h field hfield hname

theorem isNameless_tag (wanted : Bool) (tag : String) :
    IsNameless (if wanted then [("etag", .string tag)] else []) := by
  cases wanted <;> simp

theorem isNameless_contentFields (options : Options) (content : String) :
    IsNameless (contentFields options content) := by
  unfold contentFields
  split <;> simp

theorem isNameless_warningField (notes : List String) : IsNameless (warningField notes) := by
  unfold warningField
  split <;> simp

theorem isNameless_messageField (r : Request) (message : String) :
    IsNameless (messageField r message) := by
  unfold messageField
  split <;> simp

theorem isNameless_collection (r : Request) (all : List Json) (emptyNotice : Option String) :
    IsNameless (collection r all emptyNotice) := by
  rw [collection_eq]
  exact isNameless_append.2 ⟨by simp, isNameless_warningField _⟩

variable {r : Request} {t : Target} {name : String} {output : Output} {reply : Reply}

/-- Whatever stands around the fields of a data set, the reply reports it. -/
theorem names_dataSetFields {status : Nat} {front back : List (String × Json)}
    (hname : t.dataSetName? = some name) (hfront : IsNameless front) (hback : IsNameless back) :
    Names ⟨status, Json.Fields.ofList (front ++ dataSetFields t ++ back)⟩ name t.memberName? := by
  have hfield {field : String} (h : field ∈ ["datasetName", "memberName"]) :
      (Json.Fields.ofList (front ++ dataSetFields t ++ back)).get? field =
        (Json.Fields.ofList (dataSetFields t)).get? field := by
    rw [Json.Fields.get?_ofList_append, Json.Fields.get?_ofList_append,
      get?_of_isNameless hfront h, get?_of_isNameless hback h, Option.none_or, Option.or_none]
  constructor
  · refine (hfield (by decide)).trans ?_
    rw [dataSetFields, dataSetField, hname]
    cases t.memberName? <;> rfl
  · refine (hfield (by decide)).trans ?_
    rw [dataSetFields, dataSetField]
    cases t.memberName? <;> rfl

theorem not_of_dataSetName?_eq_none {other : Target} (hname : r.target.dataSetName? = some name)
    (h : r.target = other) (hnone : other.dataSetName? = none) : False := by
  rw [h, hnone] at hname
  cases hname

/-- A listing reports no member, and a data set with one cannot be listed. -/
theorem list?_names (hname : r.target.dataSetName? = some name)
    (whole : r.target.memberName? = none) (h : list? r output = some reply) :
    reply.Names name r.target.memberName? := by
  unfold list? at h
  split at h
  · rename_i htarget
    exact (not_of_dataSetName?_eq_none hname htarget rfl).elim
  · have hfields : dataSetField r.target = dataSetFields r.target ++ [] := by
      rw [dataSetFields, whole]
      rfl
    cases h
    rw [hfields, ← List.append_assoc]
    exact names_dataSetFields hname (isNameless_collection _ _ _) isNameless_nil
  · rename_i htarget
    exact (not_of_dataSetName?_eq_none hname htarget rfl).elim
  · rename_i htarget
    exact (not_of_dataSetName?_eq_none hname htarget rfl).elim
  · rename_i htarget
    exact (not_of_dataSetName?_eq_none hname htarget rfl).elim
  · cases h

theorem read?_names {second : Int} (hname : r.target.dataSetName? = some name)
    (h : read? second r output = some reply) : reply.Names name r.target.memberName? := by
  unfold read? at h
  split at h
  · rename_i htarget
    exact (not_of_dataSetName?_eq_none hname htarget rfl).elim
  · rename_i htarget
    exact (not_of_dataSetName?_eq_none hname htarget rfl).elim
  · rename_i htarget
    exact (not_of_dataSetName?_eq_none hname htarget rfl).elim
  · cases h
    rw [List.append_assoc, List.append_assoc]
    refine names_dataSetFields hname isNameless_nil ?_
    simp only [isNameless_append]
    exact ⟨isNameless_tag _ _, isNameless_contentFields _ _, isNameless_warningField _⟩
  · cases h

theorem write?_names (hname : r.target.dataSetName? = some name)
    (h : write? r output = some reply) : reply.Names name r.target.memberName? := by
  unfold write? at h
  split at h
  · rename_i htarget
    exact (not_of_dataSetName?_eq_none hname htarget rfl).elim
  · cases h
    rw [List.append_assoc, List.append_assoc]
    refine names_dataSetFields hname isNameless_nil ?_
    simp only [isNameless_append]
    exact ⟨by simp, isNameless_messageField _ _, isNameless_warningField _⟩
  · cases h

theorem create?_names (hname : r.target.dataSetName? = some name)
    (h : create? r output = some reply) : reply.Names name r.target.memberName? := by
  unfold create? at h
  split at h
  · rename_i htarget
    exact (not_of_dataSetName?_eq_none hname htarget rfl).elim
  · cases h
    rw [List.append_assoc]
    refine names_dataSetFields hname isNameless_nil ?_
    exact isNameless_append.2 ⟨by simp [message], isNameless_warningField _⟩
  · cases h

theorem delete?_names (hname : r.target.dataSetName? = some name)
    (h : delete? r output = some reply) : reply.Names name r.target.memberName? := by
  unfold delete? at h
  split at h
  · rename_i htarget
    exact (not_of_dataSetName?_eq_none hname htarget rfl).elim
  · rename_i htarget
    exact (not_of_dataSetName?_eq_none hname htarget rfl).elim
  · cases h
    rw [List.append_assoc]
    refine names_dataSetFields hname isNameless_nil ?_
    exact isNameless_append.2 ⟨by simp [message], isNameless_warningField _⟩
  · cases h

end Reply

namespace Request

variable {r : Request} {name dsn : String}

/-- A request for a data set is planned by a call on what the host finds under
its name, and every reply to it reports the name as the request has it. -/
theorem IsServable.actsOn_and_names (h : r.IsServable) (hname : r.target.dataSetName? = some name)
    (hdsn : r.target.dsn? = some dsn) :
    ∃ call, r.plan = .ok call ∧ call.dsn? = some dsn ∧ call.ActsOn (Dsn.ofText dsn) ∧
      ∀ second output reply, Reply.build second r output = .ok reply →
        reply.Names name r.target.memberName? := by
  obtain ⟨verb, target, options, payload, gaps⟩ := r
  cases h with
  | listMembers p named whole =>
    refine ⟨_, planList_of_dsn hdsn whole, rfl, Host.Machine.listMembers_actsOn dsn, ?_⟩
    exact fun _ _ _ hreply => Reply.list?_names hname whole (Reply.build_eq_ok_iff.1 hreply)
  | readDataSet p named =>
    refine ⟨_, planRead_of_dsn hdsn, rfl, Host.Machine.readDataSet_actsOn dsn _, ?_⟩
    exact fun _ _ _ hreply => Reply.read?_names hname (Reply.build_eq_ok_iff.1 hreply)
  | writeDataSet data named =>
    refine ⟨_, planWrite_of_dsn hdsn rfl, rfl, Host.Machine.writeDataSet_actsOn dsn _ _ _, ?_⟩
    exact fun _ _ _ hreply => Reply.write?_names hname (Reply.build_eq_ok_iff.1 hreply)
  | createMember p named inside =>
    refine ⟨_, planCreate_member hdsn inside, rfl, Host.Machine.createMember_actsOn dsn, ?_⟩
    exact fun _ _ _ hreply => Reply.create?_names hname (Reply.build_eq_ok_iff.1 hreply)
  | createDataSet attributes named whole =>
    refine ⟨_, planCreate_dataSet hdsn whole rfl, rfl,
      Host.Machine.createDataSet_actsOn dsn attributes, ?_⟩
    exact fun _ _ _ hreply => Reply.create?_names hname (Reply.build_eq_ok_iff.1 hreply)
  | deleteDataSet p named =>
    refine ⟨_, planDelete_of_dsn hdsn, rfl, Host.Machine.deleteDataSet_actsOn dsn, ?_⟩
    exact fun _ _ _ hreply => Reply.delete?_names hname (Reply.build_eq_ok_iff.1 hreply)
  | _ => cases hname

end Request

namespace Target

/-! ## Agreement -/

/-- The host finds the data set and the member that a path names, up to letter
case and the white space in front of the name, and with a volume in front it
finds the same. A request with this path becomes a call on what the host finds
there and on nothing else, and a reply reports the names of the path. -/
theorem path_names_what_the_host_finds (raw : String) {t : Target}
    (h : ofDataSetPath raw = .ok t) :
    ∃ name dsn, t.dataSetName? = some name ∧ t.dsn? = some dsn ∧
      Dsn.ofText dsn = ⟨Text.upper (Text.trimStart name), t.memberName?.map Text.upper⟩ ∧
      (∀ volume, volume ≠ "" → ¬[')', '/'] <:+: volume.toList → t.volume? = none →
        ∃ u other, ofDataSetPath ("-(" ++ volume ++ ")/" ++ raw) = .ok (.onVolume volume u) ∧
          u.dataSetName?.map Text.trimStart = some (Text.trimStart name) ∧
          u.memberName? = t.memberName? ∧
          (onVolume volume u).dsn? = some other ∧ Dsn.ofText other = Dsn.ofText dsn) ∧
      ∀ e ∈ Endpoint.ofDataSets, ∀ q body r, e.accept raw q body = .ok r →
        ∃ call, r.plan = .ok call ∧ call.dsn? = some dsn ∧ call.ActsOn (Dsn.ofText dsn) ∧
          ∀ second output reply, Reply.build second r output = .ok reply →
            reply.Names name t.memberName? := by
  obtain ⟨name, dsn, hname, hdsn, hfound⟩ := ofText_of_path h
  refine ⟨name, dsn, hname, hdsn, hfound, fun volume hvolume hend hplain => ?_,
    fun e he q body r haccept => ?_⟩
  · obtain ⟨u, hpath, hmember, htrim⟩ := path_behind_volume h hplain hvolume hend
    obtain ⟨inner, other, hinner, hother, hagain⟩ := ofText_of_path hpath
    have hinner : u.dataSetName? = some inner := hinner
    have hmember' : (onVolume volume u).memberName? = t.memberName? := hmember
    rw [hinner, hname] at htrim
    have hstart : Text.trimStart inner = Text.trimStart name := Option.some.inj htrim
    refine ⟨u, other, hpath, ?_, hmember, hother, ?_⟩
    · rw [hinner]
      exact htrim
    · rw [hagain, hfound, hstart, hmember']
  · have htarget : r.target = t := by
      have hpath := Endpoint.path_of_accept he haccept
      rw [h] at hpath
      exact (Except.ok.inj hpath).symm
    subst htarget
    exact (Endpoint.isServable_of_accept haccept).actsOn_and_names hname hdsn

/-- The path ` a.b/m` names the member `M` of `A.B`, and so it does behind the
volume `V`. The reply to a read has the names as they are written. -/
theorem one_member_on_both_sides :
    ofDataSetPath " a.b/m" = .ok (.member "a.b" "m") ∧
      Dsn.ofText "a.b(m)" = ⟨"A.B", some "M"⟩ ∧
      (∃ u other, ofDataSetPath ("-(" ++ "V" ++ ")/" ++ " a.b/m") = .ok (.onVolume "V" u) ∧
        (onVolume "V" u).dsn? = some other ∧ Dsn.ofText other = ⟨"A.B", some "M"⟩) ∧
      ∃ r reply, Endpoint.readDataSet.accept " a.b/m" [] [] = .ok r ∧
        r.plan = .ok (.readDataSet "a.b(m)" "") ∧
        Reply.build 0 r (.text "x") = .ok reply ∧ reply.Names "a.b" (some "m") := by
  have hpath : ofDataSetPath " a.b/m" = .ok (.member "a.b" "m") := rfl
  obtain ⟨name, dsn, hname, hdsn, hfound, hvolume, hserved⟩ :=
    path_names_what_the_host_finds _ hpath
  have hname : "a.b" = name := Option.some.inj hname
  have hdsn : "a.b(m)" = dsn := Option.some.inj hdsn
  subst hname hdsn
  have hfound : Dsn.ofText "a.b(m)" = ⟨"A.B", some "M"⟩ := by
    have hupper : Text.upper (Text.trimStart "a.b") = "A.B" := by decide
    have hmember : (memberName? (.member "a.b" "m")).map Text.upper = some "M" := by decide
    rw [hfound, hupper, hmember]
  refine ⟨hpath, hfound, ?_, ?_⟩
  · obtain ⟨u, other, hbehind, _, _, hother, hsame⟩ := hvolume "V" (by decide) (by decide) rfl
    exact ⟨u, other, hbehind, hother, hsame.trans hfound⟩
  · have haccept : Endpoint.readDataSet.accept " a.b/m" [] [] =
        .ok { verb := .read, target := .member "a.b" "m" } :=
      eq_ok_of_toOption (by decide)
    obtain ⟨call, hplan, _, _, hnames⟩ := hserved .readDataSet (by decide) [] [] _ haccept
    exact ⟨_, _, haccept, rfl, rfl, hnames 0 (.text "x") _ rfl⟩

end Target

end MvsGateway
