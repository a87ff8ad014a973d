import MvsGateway.Proofs.DataSetName
import MvsGateway.Proofs.Handover
import MvsGateway.Proofs.Pipeline
import MvsGateway.Proofs.Request.DataSetPath

/-!
# Empty names

The service refuses paths that lack the name of a data set or a member. The
host trims a name once more before it looks for a member, so that what the
service took for a name can be none there: white space between a volume and a
member. The name of a data set with a job is not looked at by the service at
all.
-/

namespace MvsGateway

open Host (Backend Call Dsn)

/-! ## Names on the host -/

namespace Host.Dsn

/-- Neither the data set nor the member has an empty name. -/
structure IsNamed (d : Dsn) : Prop where
  name : d.name ≠ ""
  member : d.member ≠ some ""

/-- The texts that the host finds an empty name in: nothing, a member alone,
and empty parentheses. -/
def LacksName (text : String) : Prop :=
  Text.upper (Text.trim text) = "" ∨
    (∃ member, Text.upper (Text.trim text) = "(" ++ member ++ ")") ∨
    ∃ name, Text.upper (Text.trim text) = name ++ "()" ∧ '(' ∉ name.toList

theorem ofText_whole {text : String} (h : (ofText text).member = none) :
    ofText text = ⟨Text.upper (Text.trim text), none⟩ := by
  unfold ofText at h ⊢
  simp only at h ⊢
  split at h
  · split at h
    · cases h
    · rfl
  · rfl

theorem ofText_of_trim_eq {text : String} (h : Text.upper (Text.trim text) = "") :
    ofText text = ⟨"", none⟩ := by
  unfold ofText
  rw [h]
  rfl

theorem isNamed_ofText_iff (text : String) : (ofText text).IsNamed ↔ ¬LacksName text := by
  have hmember (name member : String) (hopen : '(' ∉ name.toList)
      (h : Text.upper (Text.trim text) = name ++ "(" ++ member ++ ")") :
      ofText text = ⟨name, some member⟩ :=
    ofText_eq_member_iff.2 ⟨h, hopen⟩
  constructor
  · rintro ⟨hname, hinner⟩ (h | ⟨member, h⟩ | ⟨name, h, hopen⟩)
    · rw [ofText_of_trim_eq h] at hname
      exact hname rfl
    · rw [hmember "" member (by decide) h] at hname
      exact hname rfl
    · rw [← append_parentheses] at h
      rw [hmember name "" hopen h] at hinner
      exact hinner rfl
  · intro h
    cases hm : (ofText text).member with
    | none =>
      rw [ofText_whole hm]
      exact ⟨fun hname => h (.inl hname), nofun⟩
    | some member =>
      have hwhole : ofText text = ⟨(ofText text).name, some member⟩ := by rw [← hm]
      obtain ⟨htext, hopen⟩ := ofText_eq_member_iff.1 hwhole
      constructor
      · intro hname
        rw [hname] at htext
        exact h (.inr (.inl ⟨member, htext⟩))
      · rw [hm]
        rintro ⟨⟩
        rw [append_parentheses] at htext
        exact h (.inr (.inr ⟨_, htext, hopen⟩))

/-- The white space in front of a name is lost, and that in front of a member
is kept. -/
theorem ofText_member_text {name : String} (hopen : '(' ∉ name.toList) (member : String) :
    ofText (name ++ "(" ++ member ++ ")") =
      ⟨Text.upper (String.ofList (Chars.trimStart name.toList)), some (Text.upper member)⟩ := by
  have htrim : Text.trim (name ++ "(" ++ member ++ ")") =
      String.ofList (Chars.trimStart name.toList) ++ "(" ++ member ++ ")" := by
    have hchars := Chars.trim_append (c := '(') (d := ')') (by decide) (by decide) name.toList
      member.toList
    rw [← String.toList_inj]
    simpa using hchars
  rw [ofText_eq_member_iff, htrim, Text.upper_append, Text.upper_append, Text.upper_append]
  refine ⟨rfl, fun h => ?_⟩
  rw [Text.toList_upper, Chars.mem_map_toUpper_iff (by decide), String.toList_ofList] at h
  exact hopen ((List.dropWhile_sublist _).subset h)

end Host.Dsn

/-! ## Names in paths -/

namespace Target

variable {name inner : List Char}

theorem IsPart.open_not_mem (h : IsPart name) : '(' ∉ (String.ofList name).toList := by
  rw [String.toList_ofList]
  exact h.not_mem rfl

theorem isNamed_member_iff (hname : IsPart name) (hinner : IsPart inner) :
    (Dsn.ofText (String.ofList name ++ "(" ++ String.ofList inner ++ ")")).IsNamed ↔
      ¬Text.isBlank (String.ofList name) = true := by
  rw [Dsn.ofText_member_text hname.open_not_mem, Text.isBlank, String.toList_ofList,
    ← Chars.trimStart_eq_nil_iff]
  have hempty {s : List Char} : Text.upper (String.ofList s) = "" ↔ s = [] := by
    rw [← String.toList_inj]
    simp
  constructor
  · intro h hblank
    exact h.name (hempty.2 hblank)
  · intro h
    refine ⟨fun hblank => h (hempty.1 hblank), fun hnothing => ?_⟩
    exact hinner.nonEmpty (hempty.1 (Option.some.inj hnothing))

theorem isNamed_whole (hname : IsPart name) (hblank : ¬name.all Chars.isBlank = true) :
    (Dsn.ofText (String.ofList name)).IsNamed := by
  have hopen : '(' ∉ (Text.upper (Text.trim (String.ofList name))).toList := by
    rw [Text.toList_upper, Chars.mem_map_toUpper_iff (by decide), Text.toList_trim]
    exact fun h => hname.open_not_mem (Chars.mem_of_mem_trim h)
  rw [Dsn.isNamed_ofText_iff]
  rintro (h | ⟨member, h⟩ | ⟨front, h, _⟩)
  · have hchars := congrArg String.toList h
    simp only [Text.toList_upper, Text.toList_trim, String.toList_ofList, String.toList_empty,
      List.map_eq_nil_iff, Chars.trim_eq_nil_iff] at hchars
    exact hblank hchars
  · rw [h] at hopen
    simp at hopen
  · rw [h] at hopen
    simp at hopen

/-- What is written is named unless it is a member behind white space alone. The
text does not end with white space. -/
theorem IsWritten.isNamed_iff {part : List Char} {t : Target} {dsn : String}
    (h : IsWritten part t) (hlast : ∀ c ∈ part.getLast?, Chars.isBlank c = false)
    (hdsn : t.dsn? = some dsn) :
    (Dsn.ofText dsn).IsNamed ↔
      ¬∃ name member, t = .member name member ∧ Text.isBlank name = true := by
  have hinside {name inner : List Char} (hname : IsPart name) (hinner : IsPart inner) :
      (Dsn.ofText (String.ofList name ++ "(" ++ String.ofList inner ++ ")")).IsNamed ↔
        ¬∃ other member, Target.member (String.ofList name) (String.ofList inner) =
          .member other member ∧ Text.isBlank other = true := by
    refine (isNamed_member_iff hname hinner).trans (not_congr ⟨?_, ?_⟩)
    · exact fun hblank => ⟨_, _, rfl, hblank⟩
    · rintro ⟨_, _, ⟨⟩, hblank⟩
      exact hblank
  cases h with
  | dataSet hname =>
    cases hdsn
    obtain ⟨before, c, rfl, _⟩ := hname.last []
    have hc : Chars.isBlank c = false := hlast c (by simp)
    refine iff_of_true (isNamed_whole hname ?_) ?_
    · simp [hc]
    · rintro ⟨_, _, ⟨⟩, _⟩
  | slash hname hinner =>
    cases hdsn
    exact hinside hname hinner
  | parentheses hname hinner =>
    cases hdsn
    exact hinside hname hinner

theorem isBlank_last_dataSetPart (raw : String) :
    ∀ c ∈ (dataSetPart raw).getLast?, Chars.isBlank c = false := by
  intro c hc
  obtain ⟨front, hfront⟩ := dataSetPart_suffix raw
  apply (Chars.isBlank_ends_trim raw.toList).2
  rw [← hfront, List.getLast?_append, Option.mem_def.1 hc]
  rfl

/-- What a path names is named on the host, unless white space stands between a
volume and a member. -/
theorem isNamed_of_path {raw dsn : String} {t : Target} (h : ofDataSetPath raw = .ok t)
    (hdsn : t.dsn? = some dsn) :
    (Dsn.ofText dsn).IsNamed ↔
      ¬∃ volume name member, t = .onVolume volume (.member name member) ∧
        Text.isBlank name = true := by
  have hlast := isBlank_last_dataSetPart raw
  rcases isWritten_of_path h with ⟨hwritten, hwhole⟩ | ⟨volume, inner, rfl, hwritten⟩
  · -- Without a volume the name is at the front, where the white space is gone.
    have hfirst : ∀ c ∈ (dataSetPart raw).head?, Chars.isBlank c = false := by
      rw [hwhole]
      exact (Chars.isBlank_ends_trim raw.toList).1
    generalize dataSetPart raw = part at hwritten hlast hfirst
    refine iff_of_true ((hwritten.isNamed_iff hlast hdsn).2 ?_) ?_
    · rintro ⟨name, member, rfl, hblank⟩
      obtain ⟨front, c, hname, hhead, hmem, _⟩ := hwritten.first
      cases hname
      rw [Text.isBlank, String.toList_ofList, List.all_eq_true] at hblank
      have hplain := hfirst c hhead
      rw [hblank c hmem] at hplain
      cases hplain
    · rintro ⟨_, _, _, rfl, _⟩
      cases hwritten
  · refine (hwritten.isNamed_iff hlast hdsn).trans (not_congr ⟨?_, ?_⟩)
    · rintro ⟨name, member, rfl, hblank⟩
      exact ⟨volume, name, member, rfl, hblank⟩
    · rintro ⟨_, name, member, ⟨⟩, hblank⟩
      exact ⟨name, member, rfl, hblank⟩

end Target

namespace Endpoint

open Http (Response)

variable {e : Endpoint} {raw : String} {q : Query} {body : Body} {r : Request}

/-! ## Refused paths -/

/-- The endpoints whose path names a data set or a member. -/
def ofDataSets : List Endpoint :=
  [.listMembers, .readDataSet, .writeDataSet, .createDataSet, .deleteDataSet]

theorem path_of_accept (he : e ∈ ofDataSets) (h : e.accept raw q body = .ok r) :
    Target.ofDataSetPath raw = .ok r.target := by
  simp only [ofDataSets, List.mem_cons, List.not_mem_nil, or_false] at he
  rcases he with rfl | rfl | rfl | rfl | rfl
  · exact (listMembersRequest_eq_ok h).2.1
  · exact (dataSetRequest_eq_ok h).2.1
  · exact (writeDataSetRequest_eq_ok h).2.1
  · exact (createDataSetRequest_eq_ok h).2
  · exact (dataSetRequest_eq_ok h).2.1

theorem refuses_of_lacksPart (he : e ∈ ofDataSets)
    (h : Target.LacksPart (Target.dataSetPart raw)) :
    ∃ fault, e.accept raw q body = .error fault := by
  cases haccept : e.accept raw q body with
  | error fault => exact ⟨fault, rfl⟩
  | ok r => exact absurd h (Target.not_lacksPart_of_path (path_of_accept he haccept))

/-! ## Accepted names -/

/-- The ways in which an accepted request hands over an empty name: as the
source of a job, or as white space between a volume and a member. -/
inductive PassesEmptyName (raw : String) (body : Body) : Endpoint → Prop
  | source {fields : Json.Fields} {dsn : String} (hobject : body.object? = some fields)
      (hdsn : Body.textField? fields "dsn" = some dsn) (hlacks : Dsn.LacksName dsn) :
      PassesEmptyName raw body .submitJob
  | volume {e : Endpoint} {volume name member : String} (he : e ≠ .submitJob)
      (hpath : Target.ofDataSetPath raw = .ok (.onVolume volume (.member name member)))
      (hblank : Text.isBlank name = true) : PassesEmptyName raw body e

theorem isNamed_of_accept {call : Call} {dsn : String} (haccept : e.accept raw q body = .ok r)
    (hplan : r.plan = .ok call) (hdsn : call.dsn? = some dsn) :
    (Dsn.ofText dsn).IsNamed ↔ ¬PassesEmptyName raw body e := by
  rcases named_dsn haccept hplan hdsn with ⟨he, t, hpath, ht⟩ | ⟨rfl, fields, hobject, hfield⟩
  · refine (Target.isNamed_of_path hpath ht).trans (not_congr ⟨?_, ?_⟩)
    · rintro ⟨volume, name, member, rfl, hblank⟩
      exact .volume he hpath hblank
    · intro hpasses
      cases hpasses with
      | source => exact absurd rfl he
      | volume _ hother hblank =>
        cases hpath.symm.trans hother
        exact ⟨_, _, _, rfl, hblank⟩
  · refine (Dsn.isNamed_ofText_iff dsn).trans (not_congr ⟨?_, ?_⟩)
    · exact fun hlacks => .source hobject hfield hlacks
    · intro hpasses
      cases hpasses with
      | source hother hname hlacks =>
        cases hobject.symm.trans hother
        cases hfield.symm.trans hname
        exact hlacks
      | volume he => exact absurd rfl he

/-- A path with nothing where a name belongs is refused, and a refused request
is answered 400 without a call. A name that an accepted request hands over is
not empty on the host, with two exceptions. -/
theorem names_are_not_empty (e : Endpoint) (raw : String) (q : Query) (body : Body) :
    (e ∈ ofDataSets → Target.LacksPart (Target.dataSetPart raw) →
      ∃ fault, e.accept raw q body = .error fault) ∧
    (∀ fault, e.accept raw q body = .error fault →
      ∀ {σ : Type} (b : Backend σ) (second : Int) (s : σ) (log : List Call),
        (run b.noting second (e.accept raw q body) (s, log)).2 = (s, log) ∧
        Response.ofResult (run b.noting second (e.accept raw q body) (s, log)).1 =
          .ofErrorReply ⟨400, fault.message, fault.message⟩) ∧
    ∀ r call dsn, e.accept raw q body = .ok r → r.plan = .ok call → call.dsn? = some dsn →
      ((Dsn.ofText dsn).IsNamed ↔ ¬PassesEmptyName raw body e) :=
  ⟨refuses_of_lacksPart, fun _ h _ b second s log => run_refused b.noting second h (s, log),
    fun _ _ _ => isNamed_of_accept⟩

/-- The body of a job from the data set `()`. -/
def jobOfNothing : Body := Utf8.encodeString "\x7b\"dsn\": \"()\"\x7d"

/-- Parentheses alone are the source of a job, and a space is in front of a
member on a volume. A member alone is refused. -/
theorem empty_names_are_handed_over :
    (∃ r, submitJob.accept "" [] jobOfNothing = .ok r ∧ r.plan = .ok (.submitDataSet "()") ∧
      ¬(Dsn.ofText "()").IsNamed) ∧
    (∃ r, readDataSet.accept "-(V)/ (M)" [] [] = .ok r ∧
      r.plan = .ok (.readDataSet " (M)" "") ∧ ¬(Dsn.ofText " (M)").IsNamed) ∧
    ∃ fault, readDataSet.accept "(M)" [] [] = .error fault := by
  refine ⟨?_, ?_, ?_⟩
  · have haccept : submitJob.accept "" [] jobOfNothing =
        .ok { verb := .submit, target := .jobQueue, payload := .jcl (.dataSet "()") } :=
      eq_ok_of_toOption (by decide +kernel)
    obtain ⟨_, _, source, hsource, ⟨⟩⟩ := submitJobRequest_eq_ok haccept
    rcases jclSource_eq_ok hsource with ⟨fields, _, hobject, hfield, ⟨⟩⟩ | ⟨_, h⟩ | ⟨_, h⟩
    · obtain ⟨_, _, hnamed⟩ := names_are_not_empty submitJob "" [] jobOfNothing
      have hlacks : Dsn.LacksName "()" := .inr (.inl ⟨"", by decide⟩)
      refine ⟨_, haccept, rfl, fun h => ?_⟩
      exact (hnamed _ (.submitDataSet "()") "()" haccept rfl rfl).1 h
        (.source hobject hfield hlacks)
    · cases h
    · cases h
  · obtain ⟨_, _, hnamed⟩ := names_are_not_empty readDataSet "-(V)/ (M)" [] []
    have hpath : Target.ofDataSetPath "-(V)/ (M)" = .ok (.onVolume "V" (.member " " "M")) := rfl
    refine ⟨_, rfl, rfl, fun h => ?_⟩
    exact (hnamed _ (.readDataSet " (M)" "") " (M)" rfl rfl rfl).1 h (.volume nofun hpath rfl)
  · obtain ⟨hrefused, _⟩ := names_are_not_empty readDataSet "(M)" [] []
    exact hrefused (by decide) (.inr (.inl rfl))

end Endpoint

end MvsGateway
