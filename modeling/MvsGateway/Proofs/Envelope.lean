import MvsGateway.Proofs.Pipeline
import MvsGateway.Proofs.Request.Accepted

/-!
# Items and warnings

A collection shows the first of its items, up to the limit of the request. Any
reply warns of the options that the request notes: a reply that has no field
for warnings answers only requests that note no option. Truncation and
emptiness are warned of where warnings are wanted.
-/

namespace MvsGateway

open Host (Call Output)

/-- What a collection without items says, by what the host gives. A directory
has no such notice. -/
def Host.Output.emptyNotice : Output → Option String
  | .dataSets _ => some "no matching results found"
  | .members _ => some "no members found"
  | .jobs _ => some "no jobs found"
  | .spoolFiles _ => some "no spool files found"
  | _ => none

/-! ## Noted options -/

namespace Request

/-- What a request that notes an option can be about. -/
inductive MayNote : Verb → Target → Prop
  | list (t : Target) : MayNote .list t
  | dataSet (v : Verb) {t : Target} (named : t.IsDataSet) : MayNote v t
  | readFile (path : String) : MayNote .read (.file path)
  | writeFile (path : String) : MayNote .write (.file path)
  | readJob (ref : JobRef) : MayNote .read (.job ref)

/-- Every option that the request notes can be warned of. -/
def NotesSoundly (r : Request) : Prop := r.gaps = [] ∨ MayNote r.verb r.target

/-- The request with another limit for the items of a collection. -/
def withLimit (r : Request) (limit : Option Nat) : Request :=
  { r with options := { r.options with maxEntries := limit } }

/-- The items that the limit of the request leaves. -/
def kept (r : Request) (all : List Json) : List Json :=
  match r.options.maxEntries with
  | some limit => all.take limit
  | none => all

/-- What a collection says about items that are left out, and about none. -/
def shortfall (r : Request) (all : List Json) (emptyNotice : Option String) : List String :=
  (if (r.kept all).length < all.length then ["results truncated"] else []) ++
    if r.kept all = [] then emptyNotice.toList else []

/-- What any reply says about the options that the request notes: of each one,
by its name, that it is not supported. -/
def gapNotices (r : Request) : List String :=
  r.gaps.map fun option =>
    option ++ " parameter provided but not supported by current native function"

/-- All that a collection says: the options that the request notes, and where
warnings are wanted the shortfall. -/
def notes (r : Request) (all : List Json) (emptyNotice : Option String) : List String :=
  r.gapNotices ++ if r.options.warn then r.shortfall all emptyNotice else []

theorem map_gapWarning (r : Request) : r.gaps.map gapWarning = r.gapNotices := rfl

theorem kept_of_no_limit {r : Request} (h : r.options.maxEntries = none) (all : List Json) :
    r.kept all = all := by
  rw [kept, h]

theorem MayNote.verb_of_file {v : Verb} {path : String} (h : MayNote v (.file path)) :
    v ∈ [.list, .read, .write] := by
  cases h with
  | dataSet _ named => cases named
  | _ => decide

variable {r : Request}

theorem mayNote_of_path {raw : String} (h : Target.ofDataSetPath raw = .ok r.target) :
    MayNote r.verb r.target :=
  .dataSet r.verb (Target.isDataSet_of_path h)

theorem mayNote_of_list (h : r.verb = .list) : MayNote r.verb r.target := by
  rw [h]
  exact .list r.target

end Request

namespace Endpoint

variable {raw : String} {q : Query} {body : Body} {r : Request}

theorem accept_notesSoundly {e : Endpoint} (h : e.accept raw q body = .ok r) :
    r.NotesSoundly := by
  cases e with
  | listDataSets => exact .inr (Request.mayNote_of_list (listDataSetsRequest_eq_ok h).1)
  | listMembers => exact .inr (Request.mayNote_of_list (listMembersRequest_eq_ok h).1)
  | readDataSet | deleteDataSet =>
    exact .inr (Request.mayNote_of_path (dataSetRequest_eq_ok h).2.1)
  | writeDataSet => exact .inr (Request.mayNote_of_path (writeDataSetRequest_eq_ok h).2.1)
  | createDataSet => exact .inr (Request.mayNote_of_path (createDataSetRequest_eq_ok h).2)
  | listFiles => exact .inr (Request.mayNote_of_list (listFilesRequest_eq_ok h).1)
  | readUnixFile =>
    cases h
    right
    rw [readFileRequest, Request.gapIf_verb, Request.gapIf_target]
    exact .readFile _
  | putFile =>
    rcases putFileRequest_cases h with hwrite | ⟨fields, hchange⟩
    · obtain ⟨hverb, htarget, _⟩ := writeFileRequest_eq_ok hwrite
      right
      rw [hverb, htarget]
      exact .writeFile _
    · exact .inl (changeFileRequest_eq_ok hchange).2
  | createFile => exact .inl (createFileRequest_eq_ok h).2
  | deleteFile =>
    cases h
    exact .inl rfl
  | listJobs =>
    cases h
    exact .inr (Request.mayNote_of_list (Request.gapIf_verb ..))
  | getJob =>
    rcases (getJobRequest_eq_ok h).2 with hgaps | ⟨hverb, ref, htarget⟩
    · exact .inl hgaps
    · right
      rw [hverb, htarget]
      exact .readJob ref
  | submitJob => exact .inl (submitJobRequest_eq_ok h).2.1
  | deleteJob => exact .inl (deleteJobRequest_eq_ok h).2

end Endpoint

namespace Reply

/-! ## Plain fields -/

/-- The names of the fields that collections and warnings have. -/
def envelopeNames : List String := ["returnedRows", "items", "warnings"]

/-- The fields say nothing about items or warnings. -/
def IsPlain (fields : List (String × Json)) : Prop := ∀ field ∈ fields, field.1 ∉ envelopeNames

@[simp] theorem isPlain_nil : IsPlain [] := nofun

@[simp] theorem isPlain_cons {field : String × Json} {fields : List (String × Json)} :
    IsPlain (field :: fields) ↔ field.1 ∉ envelopeNames ∧ IsPlain fields :=
  List.forall_mem_cons

@[simp] theorem isPlain_append {fields later : List (String × Json)} :
    IsPlain (fields ++ later) ↔ IsPlain fields ∧ IsPlain later :=
  List.forall_mem_append

theorem get?_of_isPlain {fields : List (String × Json)} {name : String} (h : IsPlain fields)
    (hname : name ∈ envelopeNames) : (Json.Fields.ofList fields).get? name = none := by
  apply Json.Fields.get?_ofList_eq_none
  rintro field hfield rfl
  exact h field hfield hname

theorem isPlain_tag (wanted : Bool) (tag : String) :
    IsPlain (if wanted then [("etag", .string tag)] else []) := by
  cases wanted <;> simp [envelopeNames]

theorem isPlain_contentFields (options : Options) (content : String) :
    IsPlain (contentFields options content) := by
  unfold contentFields
  split <;> simp [envelopeNames]

theorem isPlain_messageField (r : Request) (message : String) :
    IsPlain (messageField r message) := by
  unfold messageField
  split <;> simp [envelopeNames]

theorem isPlain_jobFields (ref : JobRef) : IsPlain (jobFields ref) := by
  unfold jobFields
  split <;> simp [envelopeNames]

theorem isPlain_jobItemFields (e : Host.JobEntry) : IsPlain (jobItemFields e) := by
  simp [jobItemFields, envelopeNames]

theorem isPlain_spoolFileFields (key : FileKey) : IsPlain (spoolFileFields key) := by
  cases key <;> simp [spoolFileFields, envelopeNames]

theorem isPlain_dataSetField (t : Target) : IsPlain (dataSetField t) := by
  simp [dataSetField, envelopeNames]

theorem isPlain_dataSetFields (t : Target) : IsPlain (dataSetFields t) := by
  refine isPlain_append.2 ⟨isPlain_dataSetField t, ?_⟩
  cases t.memberName? <;> simp [envelopeNames]

theorem isPlain_entryFields (p : Payload) : IsPlain (entryFields p) := by
  cases p with
  | entry kind mode =>
    refine isPlain_append.2 ⟨by simp [envelopeNames], ?_⟩
    cases mode.symbolic? <;> simp [envelopeNames]
  | _ => exact isPlain_nil

theorem isPlain_changeFields (p : Payload) : IsPlain (changeFields p) := by
  cases p <;> simp [changeFields, envelopeNames]

/-! ## Warnings -/

/-- The reply has these warnings, and no field for warnings if there are none. -/
def Warns (reply : Reply) (notes : List String) : Prop :=
  reply.body.get? "warnings" = if notes = [] then none else some (.array (notes.map .string))

theorem get?_warnings (notes : List String) :
    (Json.Fields.ofList (warningField notes)).get? "warnings" =
      if notes = [] then none else some (.array (notes.map .string)) := by
  cases notes <;> rfl

theorem warnings_plain (r : Request) : warnings r false none = r.gapNotices := by
  unfold warnings
  rw [Request.map_gapWarning]
  split <;> simp

theorem gapField_eq (r : Request) : gapField r = warningField r.gapNotices := by
  rw [gapField, warnings_plain]

/-- A reply that is no collection: it shows no items, and it warns of all that
the request notes. -/
structure WarnsOfGaps (reply : Reply) (r : Request) : Prop where
  noItems : reply.body.get? "items" = none
  warns : reply.Warns r.gapNotices

variable {r : Request} {output : Output} {reply : Reply}

theorem warnsOfGaps_gapField {status : Nat} {fields : List (String × Json)} (h : IsPlain fields) :
    WarnsOfGaps ⟨status, Json.Fields.ofList (fields ++ gapField r)⟩ r := by
  rw [gapField_eq]
  constructor
  · show (Json.Fields.ofList _).get? _ = _
    rw [Json.Fields.get?_ofList_append, get?_warningField (by decide),
      get?_of_isPlain h (by decide)]
    rfl
  · show (Json.Fields.ofList _).get? _ = _
    rw [Json.Fields.get?_ofList_append, get?_of_isPlain h (by decide), get?_warnings,
      Option.or_none]

/-- A reply without a field for warnings is enough for a request that can note
no option. -/
theorem warnsOfGaps_plain {status : Nat} {fields : List (String × Json)} (h : IsPlain fields)
    (hnotes : r.NotesSoundly) (hnone : ¬Request.MayNote r.verb r.target) :
    WarnsOfGaps ⟨status, Json.Fields.ofList fields⟩ r := by
  have hnothing : gapField r = [] := by
    rw [gapField_eq, Request.gapNotices, hnotes.resolve_right hnone]
    rfl
  have hwarns : WarnsOfGaps ⟨status, Json.Fields.ofList (fields ++ gapField r)⟩ r :=
    warnsOfGaps_gapField h
  rwa [hnothing, List.append_nil] at hwarns

/-! ## Replies that are no collections -/

theorem read?_warns {second : Int} (hverb : r.verb = .read) (hnotes : r.NotesSoundly)
    (h : read? second r output = some reply) : reply.WarnsOfGaps r := by
  unfold read? at h
  split at h
  · cases h
    apply warnsOfGaps_gapField
    simp only [isPlain_append]
    exact ⟨⟨by simp [envelopeNames], isPlain_tag _ _⟩, isPlain_contentFields _ _⟩
  · rename_i ref key content htarget
    cases h
    refine warnsOfGaps_plain ?_ hnotes ?_
    · simp only [isPlain_append]
      exact ⟨⟨isPlain_jobFields ref, isPlain_spoolFileFields key⟩, isPlain_contentFields _ _⟩
    · rw [hverb, htarget]
      intro hnote
      cases hnote with
      | dataSet _ named => cases named
  · cases h
    exact warnsOfGaps_gapField (isPlain_jobItemFields _)
  · cases h
    apply warnsOfGaps_gapField
    simp only [isPlain_append]
    exact ⟨⟨isPlain_dataSetFields _, isPlain_tag _ _⟩, isPlain_contentFields _ _⟩
  · cases h

theorem write?_warns (h : write? r output = some reply) : reply.WarnsOfGaps r := by
  unfold write? at h
  split at h
  · cases h
    apply warnsOfGaps_gapField
    simp only [isPlain_append]
    exact ⟨by simp [success, envelopeNames], isPlain_messageField _ _⟩
  · cases h
    apply warnsOfGaps_gapField
    simp only [isPlain_append]
    exact ⟨⟨isPlain_dataSetFields _, by simp [envelopeNames]⟩, isPlain_messageField _ _⟩
  · cases h

theorem create?_warns (hverb : r.verb = .create) (hnotes : r.NotesSoundly)
    (h : create? r output = some reply) : reply.WarnsOfGaps r := by
  unfold create? at h
  split at h
  · rename_i path htarget
    cases h
    refine warnsOfGaps_plain ?_ hnotes ?_
    · exact isPlain_append.2 ⟨by simp [success, envelopeNames], isPlain_entryFields _⟩
    · rw [hverb, htarget]
      exact fun hnote => absurd hnote.verb_of_file (by decide)
  · cases h
    apply warnsOfGaps_gapField
    exact isPlain_append.2 ⟨isPlain_dataSetFields _, by simp [message, envelopeNames]⟩
  · cases h

theorem delete?_warns (hverb : r.verb = .delete) (hnotes : r.NotesSoundly)
    (h : delete? r output = some reply) : reply.WarnsOfGaps r := by
  unfold delete? at h
  split at h
  · rename_i path htarget
    cases h
    refine warnsOfGaps_plain (by simp [success, envelopeNames]) hnotes ?_
    rw [hverb, htarget]
    exact fun hnote => absurd hnote.verb_of_file (by decide)
  · rename_i ref htarget
    cases h
    refine warnsOfGaps_plain ?_ hnotes ?_
    · exact isPlain_append.2 ⟨isPlain_jobFields ref, by simp [success, message, envelopeNames]⟩
    · rw [hverb, htarget]
      intro hnote
      cases hnote with
      | dataSet _ named => cases named
  · cases h
    apply warnsOfGaps_gapField
    exact isPlain_append.2 ⟨isPlain_dataSetFields _, by simp [message, envelopeNames]⟩
  · cases h

theorem change?_warns (hverb : r.verb ∉ [.list, .read, .write]) (hnotes : r.NotesSoundly)
    (h : change? r output = some reply) : reply.WarnsOfGaps r := by
  unfold change? at h
  split at h
  · rename_i path htarget
    cases h
    refine warnsOfGaps_plain ?_ hnotes ?_
    · exact isPlain_append.2 ⟨by simp [success, envelopeNames], isPlain_changeFields _⟩
    · rw [htarget]
      exact fun hnote => hverb hnote.verb_of_file
  · cases h

theorem submit?_warns (hverb : r.verb = .submit) (hservable : r.IsServable)
    (hnotes : r.NotesSoundly) (h : submit? output = some reply) : reply.WarnsOfGaps r := by
  have hnone : ¬Request.MayNote r.verb r.target := by
    obtain ⟨verb, target, options, payload, gaps⟩ := r
    cases hverb
    cases hservable with
    | submit source =>
      intro hnote
      cases hnote with
      | dataSet _ named => cases named
  unfold submit? at h
  split at h
  · cases h
    exact warnsOfGaps_plain (by simp [success, message, envelopeNames]) hnotes hnone
  · cases h

/-! ## Collections -/

/-- A reply that is a collection: it shows the items that the limit leaves and
their number, and it warns of all that the request notes and of what is not
shown. -/
structure Collects (reply : Reply) (r : Request) (all : List Json) (emptyNotice : Option String) :
    Prop where
  items : reply.body.get? "items" = some (.array (r.kept all))
  rows : reply.body.get? "returnedRows" = some (Json.ofNat (r.kept all).length)
  warns : reply.Warns (r.notes all emptyNotice)

theorem truncate_eq (r : Request) (all : List Json) :
    truncate all r.options.maxEntries =
      (r.kept all, decide ((r.kept all).length < all.length)) := by
  unfold truncate Request.kept
  cases r.options.maxEntries with
  | none => simp
  | some limit =>
    simp only
    split
    · rename_i hmore
      have hdropped : (all.take limit).length < all.length := by
        rw [List.length_take]
        omega
      rw [decide_eq_true hdropped]
    · rename_i hmore
      have hall : all.take limit = all := List.take_of_length_le (by omega)
      simp [hall]

theorem collection_eq (r : Request) (all : List Json) (emptyNotice : Option String) :
    collection r all emptyNotice =
      [("returnedRows", Json.ofNat (r.kept all).length), ("items", .array (r.kept all))] ++
        warningField (r.notes all emptyNotice) := by
  have hwarnings : warnings r (decide ((r.kept all).length < all.length))
      (if (r.kept all).isEmpty then emptyNotice else none) = r.notes all emptyNotice := by
    unfold warnings Request.notes Request.shortfall
    rw [Request.map_gapWarning]
    cases r.kept all <;> cases r.options.warn <;> simp
  simp only [collection, truncate_eq, hwarnings]

theorem collects_collection (r : Request) (all : List Json) (emptyNotice : Option String)
    {back : List (String × Json)} (hback : IsPlain back) :
    (ok (collection r all emptyNotice ++ back)).Collects r all emptyNotice := by
  have hfield {name : String} (hname : name ∈ envelopeNames) :
      (ok (collection r all emptyNotice ++ back)).body.get? name =
        ((Json.Fields.ofList (warningField (r.notes all emptyNotice))).get? name).or
          ((Json.Fields.ofList [("returnedRows", Json.ofNat (r.kept all).length),
            ("items", .array (r.kept all))]).get? name) := by
    show (Json.Fields.ofList _).get? name = _
    rw [Json.Fields.get?_ofList_append, get?_of_isPlain hback hname, Option.none_or,
      collection_eq, Json.Fields.get?_ofList_append]
  constructor
  · rw [hfield (by decide), get?_warningField (by decide)]
    rfl
  · rw [hfield (by decide), get?_warningField (by decide)]
    rfl
  · rw [Warns, hfield (by decide), get?_warnings]
    exact Option.or_none

/-- A listing is a collection whose items do not depend on the limit. -/
theorem list?_eq (h : list? r output = some reply) :
    ∃ all back, IsPlain back ∧ ∀ limit, list? (r.withLimit limit) output =
      some (ok (collection (r.withLimit limit) all output.emptyNotice ++ back)) := by
  obtain ⟨verb, target, options, payload, gaps⟩ := r
  unfold list? at h
  split at h
  · rename_i level entries htarget
    cases htarget
    refine ⟨entries.map (dataSetItem options), [], isPlain_nil, fun limit => ?_⟩
    rw [List.append_nil]
    rfl
  · rename_i entries
    refine ⟨entries.map memberItem, dataSetField target, isPlain_dataSetField target,
      fun limit => ?_⟩
    cases target <;> rfl
  · rename_i path listing htarget
    cases htarget
    refine ⟨listingItems listing, [("path", .string path),
      ("format", .string (if options.longFormat then "long" else "short")),
      ("showHidden", .bool options.showHidden)], ?_, fun limit => rfl⟩
    simp [envelopeNames]
  · rename_i owner entries htarget
    cases htarget
    refine ⟨entries.map jobItem, _, ?_, fun limit => rfl⟩
    simp [envelopeNames]
  · rename_i ref entries htarget
    cases htarget
    exact ⟨_, jobFields ref, isPlain_jobFields ref, fun limit => rfl⟩
  · cases h

theorem list?_collects (h : list? r output = some reply) :
    ∃ whole all, list? (r.withLimit none) output = some whole ∧
      whole.body.get? "items" = some (.array all) ∧ reply.Collects r all output.emptyNotice := by
  obtain ⟨all, back, hback, hlist⟩ := list?_eq h
  have hwhole := (collects_collection (r.withLimit none) all output.emptyNotice hback).items
  refine ⟨_, all, hlist none, hwhole, ?_⟩
  have hreply : list? r output = some (ok (collection r all output.emptyNotice ++ back)) :=
    hlist r.options.maxEntries
  rw [hreply] at h
  cases h
  exact collects_collection r all output.emptyNotice hback

end Reply

namespace Endpoint

/-- Every accepted request has a reply to every output that fits its call. A
listing shows the first items of all that it shows without a limit, as many as
the limit leaves. Every reply warns of all options that the request notes, and
a listing also of truncation and emptiness if warnings are wanted. -/
theorem replies_collect_and_warn (e : Endpoint) (raw : String) (q : Query) (body : Body)
    {r : Request} (h : e.accept raw q body = .ok r) :
    ∃ call, r.plan = .ok call ∧ ∀ output, call.Fits output → ∀ second,
      ∃ reply, Reply.build second r output = .ok reply ∧
        (r.verb = .list → ∃ whole all,
          Reply.build second (r.withLimit none) output = .ok whole ∧
          whole.body.get? "items" = some (.array all) ∧
          reply.Collects r all output.emptyNotice) ∧
        (r.verb ≠ .list → reply.WarnsOfGaps r) := by
  have hservable : r.IsServable := by
    have hreads := accept_reads e raw q body
    rwa [h] at hreads
  have hnotes := accept_notesSoundly h
  obtain ⟨call, hplan⟩ := Request.plan_of_isServable hservable
  refine ⟨call, hplan, fun output hfits second => ?_⟩
  obtain ⟨reply, hbuild, _⟩ := Reply.build_of_plan second hplan hfits
  have hof := Reply.build_eq_ok_iff.1 hbuild
  unfold Reply.of? at hof
  refine ⟨reply, hbuild, fun hlist => ?_, fun hother => ?_⟩
  · rw [hlist] at hof
    obtain ⟨whole, all, hwhole, hitems, hcollects⟩ := Reply.list?_collects hof
    refine ⟨whole, all, ?_, hitems, hcollects⟩
    have hverb : (r.withLimit none).verb = .list := hlist
    rw [Reply.build_eq_ok_iff, Reply.of?, hverb]
    exact hwhole
  · cases hverb : r.verb <;> rw [hverb] at hof
    case list => exact absurd hverb hother
    case read => exact Reply.read?_warns hverb hnotes hof
    case write => exact Reply.write?_warns hof
    case create => exact Reply.create?_warns hverb hnotes hof
    case delete => exact Reply.delete?_warns hverb hnotes hof
    case submit => exact Reply.submit?_warns hverb hservable hnotes hof
    all_goals exact Reply.change?_warns (by rw [hverb]; decide) hnotes hof

/-- One of two data sets is listed, and both the volume and the second one are
warned of. A deletion warns of the volume even if no warnings are wanted. -/
theorem volume_and_truncation_are_noted :
    (∃ r reply, listDataSets.accept ""
        [("dslevel", "P"), ("max-entries", "1"), ("volser", "V")] [] = .ok r ∧
      Reply.build 0 r (.dataSets [{ name := some "P.A" }, { name := some "P.B" }]) = .ok reply ∧
      reply.body.get? "items" = some (.array [.object [("name", .string "P.A")]]) ∧
      reply.Warns ["volser parameter provided but not supported by current native function",
        "results truncated"]) ∧
    ∃ r reply, deleteDataSet.accept "A" [("volser", "V"), ("warn", "false")] [] = .ok r ∧
      Reply.build 0 r .done = .ok reply ∧
      reply.Warns ["volser parameter provided but not supported by current native function"] := by
  constructor
  · obtain ⟨call, hplan, hreply⟩ := replies_collect_and_warn listDataSets ""
      [("dslevel", "P"), ("max-entries", "1"), ("volser", "V")] [] rfl
    cases hplan
    obtain ⟨reply, hbuild, hlist, _⟩ :=
      hreply (.dataSets [{ name := some "P.A" }, { name := some "P.B" }]) rfl 0
    obtain ⟨whole, all, hwhole, hall, hcollects⟩ := hlist rfl
    cases hwhole
    cases hall
    exact ⟨_, reply, rfl, hbuild, hcollects.items, hcollects.warns⟩
  · obtain ⟨call, hplan, hreply⟩ := replies_collect_and_warn deleteDataSet "A"
      [("volser", "V"), ("warn", "false")] [] rfl
    cases hplan
    obtain ⟨reply, hbuild, _, hwarns⟩ := hreply .done rfl 0
    exact ⟨_, reply, rfl, hbuild, (hwarns nofun).warns⟩

end Endpoint

end MvsGateway
