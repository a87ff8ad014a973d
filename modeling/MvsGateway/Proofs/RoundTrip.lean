import MvsGateway.Http.Service
import MvsGateway.Proofs.ConditionalWrite
import MvsGateway.Proofs.DataSetName

/-!
# Reading what was put

A put and a get meet at the content that the host holds between them: the put
leaves there what it takes out of its body, and the get shows it, however the
data set or the file is spelled the second time. The items of a records array
stand for characters, and the code points of these are the items again.
-/

namespace MvsGateway

open Host (Machine Dsn Path contentTag)
open Http (Route accepted membersEnding)

/-! ## Records -/

namespace Body

theorem eq_ofNat_of_asNat? {item : Json} {n : Nat} (h : item.asNat? = some n) :
    item = Json.ofNat n := by
  unfold Json.asNat? at h
  split at h
  · cases h
    rfl
  · cases h

/-- The item for a character is its code point. -/
theorem eq_ofNat_of_recordChar? {item : Json} {c : Char} (h : recordChar? item = some c) :
    item = Json.ofNat c.toNat := by
  unfold recordChar? at h
  cases hitem : item.asNat? with
  | none =>
    rw [hitem] at h
    cases h
  | some n =>
    simp only [hitem] at h
    split at h
    · rename_i hlt
      have hvalid : n.isValidChar := .inl (Nat.lt_trans hlt (by decide))
      have htoNat : c.toNat = n := by
        rw [← Option.some.inj h, Char.ofNat, dif_pos hvalid]
        rfl
      rw [htoNat]
      exact eq_ofNat_of_asNat? hitem
    · cases h

theorem map_ofNat_of_mapM_recordChar? {items : List Json} {chars : List Char}
    (h : items.mapM recordChar? = some chars) :
    (chars.map fun c => Json.ofNat c.toNat) = items := by
  induction items generalizing chars with
  | nil =>
    cases h
    rfl
  | cons item items ih =>
    rw [List.mapM_cons] at h
    obtain ⟨c, hc, hrest⟩ := Option.bind_eq_some_iff.1 h
    obtain ⟨rest, hitems, hchars⟩ := Option.bind_eq_some_iff.1 hrest
    cases hchars
    rw [List.map_cons, ← eq_ofNat_of_recordChar? hc, ih hitems]

/-- The body gives its content as an array of code points. -/
def HasRecords (body : Body) (items : List Json) : Prop :=
  ∃ fields, body.object? = some fields ∧ fields.get? "records" = some (.array items)

theorem codePoints_of_hasRecords {body : Body} {items : List Json} {content : String}
    (hrecords : body.HasRecords items) (hcontent : body.content = .ok content) :
    Reply.codePoints content = .array items := by
  obtain ⟨fields, hobject, hfield⟩ := hrecords
  simp only [Body.content, hobject, hfield] at hcontent
  obtain ⟨text, htext, hnonEmpty⟩ := eq_ok_of_bind hcontent
  have hsame : text = content := by
    split at hnonEmpty
    · cases hnonEmpty
    · exact Except.ok.inj hnonEmpty
  unfold recordsText at htext
  simp only at htext
  cases hchars : items.mapM recordChar? with
  | none =>
    rw [hchars] at htext
    cases htext
  | some chars =>
    rw [hchars] at htext
    rw [← hsame, ← Except.ok.inj htext, Reply.codePoints, String.toList_ofList,
      map_ofNat_of_mapM_recordChar? hchars]

end Body

/-! ## Spellings -/

/-- Both targets name the same data set and member, up to the case of letters. -/
structure Target.SameDataSet (t u : Target) : Prop where
  name : t.dataSetName?.map Text.upper = u.dataSetName?.map Text.upper
  member : t.memberName?.map Text.upper = u.memberName?.map Text.upper

theorem Target.upper_dsn? (t : Target) :
    t.dsn?.map Text.upper = (t.dataSetName?.map Text.upper).map fun name =>
      match t.memberName?.map Text.upper with
      | some inner => name ++ "(" ++ inner ++ ")"
      | none => name := by
  unfold dsn?
  cases t.dataSetName? with
  | none => rfl
  | some name =>
    cases t.memberName? with
    | none => rfl
    | some inner =>
      simp only [Option.map_some, Text.upper_append]
      rfl

/-- The host knows a data set by one address, however a path spells it. -/
theorem Target.SameDataSet.ofText_eq {t u : Target} (h : t.SameDataSet u) {dsn other : String}
    (ht : t.dsn? = some dsn) (hu : u.dsn? = some other) : Dsn.ofText dsn = Dsn.ofText other := by
  apply Dsn.ofText_eq_of_upper_eq
  have hupper : t.dsn?.map Text.upper = u.dsn?.map Text.upper := by
    rw [Target.upper_dsn?, Target.upper_dsn?, h.name, h.member]
  rw [ht, hu] at hupper
  exact Option.some.inj hupper

/-- The path that a put of a file names, in the query or behind the route. -/
def Http.putPath (route : Route) (raw : String) (q : Query) : Except RequestError String :=
  match route with
  | .files => q.path
  | _ => .ok raw

theorem Http.accepted_putFile {route : Route} {raw path : String} {q : Query}
    (h : putPath route raw q = .ok path) (body : Body) :
    accepted route .putFile raw q body = Endpoint.putFile.accept path q body := by
  cases route with
  | files =>
    show (do Endpoint.putFile.accept (← q.path) q body) = _
    rw [show q.path = .ok path from h]
    rfl
  | _ =>
    cases h
    rfl

/-! ## Puts and gets -/

namespace Endpoint

variable {time : String} {second : Int} {raw : String} {q : Query} {body : Body} {r : Request}
  {s next : Machine} {reply : Reply}

/-- A get shows what the data set or member holds, and changes nothing. -/
theorem readDataSet_shows (time : String) (second : Int) (q : Query) (body : Body)
    {target : Target} {dsn content : String}
    (htarget : Target.ofDataSetPath raw = .ok target) (hdsn : target.dsn? = some dsn)
    (hholds : Machine.DataSetHolds (Dsn.ofText dsn) s content) :
    ∃ reply, run (Machine.backend time) second (readDataSet.accept raw q body) s = (.ok reply, s) ∧
      reply.Shows q.options content ∧ (q.options.returnEtag = true →
        reply.body.get? "etag" = some (.string (contentTag content))) := by
  obtain ⟨r, haccept⟩ := dataSetRequest_of_path .read q htarget
  obtain ⟨hverb, hpath, hoptions⟩ := dataSetRequest_eq_ok haccept
  cases hpath.symm.trans htarget
  have hplan := Request.plan_readDataSet hverb hdsn
  have hread : (Machine.backend time).invoke (.readDataSet dsn (r.options.encoding.getD "")) s =
      (.ok (.text content), s) := by
    rw [Machine.backend_invoke, Machine.invoke, hholds dsn rfl]
    rfl
  obtain ⟨reply, hof, hshows⟩ := Reply.read?_dataSet_shows second content hdsn
  rw [hoptions] at hshows
  refine ⟨reply, ?_, hshows, fun wanted => Reply.etag?_read hdsn (by rw [hoptions, wanted]) hof⟩
  show run _ _ (dataSetRequest .read raw q) s = _
  rw [haccept]
  refine Request.reply_of_invoke hplan hread ?_
  rw [Reply.build_eq_ok_iff, Reply.of?, hverb]
  exact hof

theorem readUnixFile_shows (time : String) (second : Int) (q : Query) (body : Body)
    {content : String}
    (hholds : Machine.FileHolds (Path.ofText (Target.absolutePath raw)) s content) :
    ∃ reply, run (Machine.backend time) second (readUnixFile.accept raw q body) s =
      (.ok reply, s) ∧ reply.Shows q.options content := by
  have haccept : readUnixFile.accept raw q body = .ok (readFileRequest raw q) := rfl
  have hverb : (readFileRequest raw q).verb = .read := Request.gapIf_verb ..
  have htarget : (readFileRequest raw q).target = .file (Target.absolutePath raw) :=
    Request.gapIf_target ..
  have hoptions : (readFileRequest raw q).options = q.options := Request.gapIf_options ..
  rw [haccept]
  generalize readFileRequest raw q = r at hverb htarget hoptions
  have hplan := Request.plan_readFile hverb htarget
  have hread : (Machine.backend time).invoke (.readUnixFile (Target.absolutePath raw)
      (r.options.encoding.getD "")) s = (.ok (.text content), s) := by
    rw [Machine.backend_invoke, Machine.invoke, hholds _ rfl]
    rfl
  obtain ⟨reply, hof, hshows⟩ := Reply.read?_file_shows second content htarget
  rw [hoptions] at hshows
  refine ⟨reply, ?_, hshows⟩
  refine Request.reply_of_invoke hplan hread ?_
  rw [Reply.build_eq_ok_iff, Reply.of?, hverb]
  exact hof

end Endpoint

/-! ## Round trips -/

/-- The reply to a get gives back what the body of a put had: its content as
text or bytes, and as bytes the array of records if the body had one. -/
structure Reply.GivesBack (reply : Reply) (options : Options) (body : Body) (content : String) :
    Prop where
  shows : reply.Shows options content
  records : ∀ items, body.HasRecords items → options.bytesFormat = true →
    reply.body.get? "records" = some (.array items)

theorem Reply.Shows.givesBack {reply : Reply} {options : Options} {body : Body} {content : String}
    (h : reply.Shows options content) (hcontent : body.content = .ok content) :
    reply.GivesBack options body content := by
  refine ⟨h, fun items hrecords hbytes => ?_⟩
  rw [h.bytes hbytes, Body.codePoints_of_hasRecords hrecords hcontent]

namespace Host.Machine

variable {s : Machine} {body : Body} {content : String}

/-- Every get of the data set or member succeeds, however its path spells it,
and reports the tag if one is wanted. Only a path with the members' ending asks
for something else. -/
def GivesBackDataSet (s : Machine) (target : Target) (body : Body) (content tag : String) : Prop :=
  ∀ time second tail raw q unread spelled, Target.ofDataSetPath raw = .ok spelled →
    spelled.SameDataSet target → Text.before? membersEnding raw = none →
    ∃ get, MvsGateway.run (backend time) second (accepted (.dataSet tail) .readDataSet raw q unread)
        s = (.ok get, s) ∧
      get.GivesBack q.options body content ∧
      (q.options.returnEtag = true → get.body.get? "etag" = some (.string tag))

def GivesBackFile (s : Machine) (p : Path) (body : Body) (content : String) : Prop :=
  ∀ time second tail raw q unread, Path.ofText (Target.absolutePath raw) = p →
    ∃ get, MvsGateway.run (backend time) second (accepted (.file tail) .readUnixFile raw q unread)
        s = (.ok get, s) ∧
      get.GivesBack q.options body content

theorem DataSetHolds.givesBack {target : Target} {dsn : String}
    (hholds : DataSetHolds (Dsn.ofText dsn) s content) (hdsn : target.dsn? = some dsn)
    (hcontent : body.content = .ok content) :
    s.GivesBackDataSet target body content (contentTag content) := by
  intro time second tail raw q unread spelled hspelled hsame hending
  have hget : accepted (.dataSet tail) .readDataSet raw q unread =
      Endpoint.readDataSet.accept raw q unread := by
    simp only [accepted, hending]
  -- The other spelling is another text, which the host reads as the same address.
  obtain ⟨other, hother⟩ := Request.dsn_of_path (r := ⟨.read, spelled, {}, .none, []⟩) hspelled
  rw [← hsame.ofText_eq hother hdsn] at hholds
  obtain ⟨get, hrun, hshows, hetag⟩ :=
    Endpoint.readDataSet_shows time second q unread hspelled hother hholds
  rw [hget]
  exact ⟨get, hrun, hshows.givesBack hcontent, hetag⟩

theorem FileHolds.givesBack {p : Path} (hholds : FileHolds p s content)
    (hcontent : body.content = .ok content) : s.GivesBackFile p body content := by
  rintro time second tail raw q unread rfl
  obtain ⟨get, hrun, hshows⟩ := Endpoint.readUnixFile_shows time second q unread hholds
  exact ⟨get, hrun, hshows.givesBack hcontent⟩

end Host.Machine

end MvsGateway
