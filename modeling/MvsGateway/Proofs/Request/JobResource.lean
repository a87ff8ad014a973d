import MvsGateway.Proofs.Request.JobPath
import MvsGateway.Proofs.Request.Servable

/-!
# Addresses of jobs

A job is named by a correlator or by an identifier behind a name, and the word
`files` stands behind it for its spool files. The word may itself be a name, an
identifier or a correlator. Still no path has two readings, and one address
alone has no path: a job with the identifier `files`, whose path is that of the
spool files of a correlator.
-/

namespace MvsGateway

/-- A text that is one segment of a path. -/
structure IsSegment (s : String) : Prop where
  counts : s ≠ ""
  whole : '/' ∉ s.toList

/-! ## Keys of spool files -/

namespace FileKey

/-- The texts of a key: `JCL` in any letter case, and a number below `2 ^ 32`
with any number of zeros in front. -/
inductive IsWritten : String → FileKey → Prop
  | jcl {s : String} (letters : Text.sameLetters s "JCL" = true) : IsWritten s .jcl
  | number {s : String} {n : Nat} (zeros : Nat)
      (digits : s.toList = List.replicate zeros '0' ++ Chars.decimal n) (small : n < UInt32.size) :
      IsWritten s (.number n)

/-- A number that can be written. -/
def IsSmall (k : FileKey) : Prop := ∀ n, k = .number n → n < UInt32.size

variable {s : String} {k : FileKey} {zeros n : Nat}

/-- A number is not taken for `JCL`. -/
theorem sameLetters_of_digits (digits : s.toList = List.replicate zeros '0' ++ Chars.decimal n) :
    Text.sameLetters s "JCL" = false := by
  rw [Bool.eq_false_iff]
  intro letters
  have hmem : 'j' ∈ s.toList.map Char.toLower := by
    rw [beq_iff_eq.1 letters]
    decide
  obtain ⟨c, hc, hlower⟩ := List.mem_map.1 hmem
  rw [digits] at hc
  have hdigit := Chars.isDigit_of_mem_zeros_append hc
  rw [Chars.toLower_of_isDigit hdigit] at hlower
  rw [hlower] at hdigit
  cases hdigit

theorem ofText_eq_ok_iff : ofText s = .ok k ↔ IsWritten s k := by
  unfold ofText
  constructor
  · intro h
    split at h
    · rename_i letters
      cases h
      exact .jcl letters
    split at h
    · rename_i n hn
      obtain ⟨zeros, digits⟩ := Chars.decimal?_eq_some_iff.1 hn
      split at h
      · rename_i small
        cases h
        exact .number zeros digits small
      · cases h
    · cases h
  · intro h
    cases h with
    | jcl letters => rw [if_pos letters]
    | number zeros digits small =>
      have hvalue : Text.decimal? s = some _ := Chars.decimal?_eq_some_iff.2 ⟨zeros, digits⟩
      simp only [sameLetters_of_digits digits, hvalue, Bool.false_eq_true, if_false, small, if_true]

theorem ofText_eq_error (h : ∀ k, ¬IsWritten s k) : ofText s = .error .fileKey := by
  cases hread : ofText s with
  | ok k => exact absurd (ofText_eq_ok_iff.1 hread) (h k)
  | error e =>
    unfold ofText at hread
    split at hread
    · cases hread
    split at hread
    · split at hread
      · cases hread
      · rw [← hread]
    · rw [← hread]

/-- The text that a key is printed as is one of its own. -/
theorem isWritten_text (h : k.IsSmall) : IsWritten k.text k := by
  cases k with
  | jcl => exact .jcl (by decide)
  | number n => exact .number 0 (by simp [text, Text.decimal]) (h n rfl)

theorem IsWritten.isSmall (h : IsWritten s k) : k.IsSmall := by
  rintro n rfl
  cases h with
  | number _ _ small => exact small

/-- No key is empty or more than one segment. -/
theorem IsWritten.isSegment (h : IsWritten s k) : IsSegment s := by
  cases h with
  | jcl letters =>
    have hlower := beq_iff_eq.1 letters
    constructor
    · rintro rfl
      cases hlower
    · intro hmem
      have hslash : '/' ∈ s.toList.map Char.toLower := List.mem_map.2 ⟨'/', hmem, rfl⟩
      rw [hlower] at hslash
      exact absurd hslash (by decide)
  | number zeros digits _ =>
    constructor
    · rintro rfl
      have hnil := (List.append_eq_nil_iff.1 digits.symm).2
      exact Chars.decimal_ne_nil _ hnil
    · intro hmem
      rw [digits] at hmem
      have hdigit := Chars.isDigit_of_mem_zeros_append hmem
      cases hdigit

end FileKey

/-! ## Addresses -/

/-- The jobs that a path can name: by a correlator, and by an identifier behind
a name. -/
inductive JobRef.IsAddress : JobRef → Prop
  | correlator {c : String} (h : IsSegment c) : IsAddress (.correlator c)
  | id {name jobid : String} (hname : IsSegment name) (hid : IsSegment jobid) :
      IsAddress (.id (some name) jobid)

/-- What stands between the slashes of the written form. -/
def JobRef.segments : JobRef → List String
  | .id (some name) jobid => [name, jobid]
  | .id none jobid => [jobid]
  | .correlator c => [c]

namespace JobRef

theorem segments_ne_nil (ref : JobRef) : ref.segments ≠ [] := by
  unfold segments
  split <;> simp

theorem joinWith_segments (ref : JobRef) : Text.joinWith '/' ref.segments = ref.text := by
  unfold segments text
  split <;> simp [← String.toList_inj, Text.joinWith, Chars.joinWith]

theorem IsAddress.isSegment {ref : JobRef} (h : ref.IsAddress) :
    ∀ s ∈ ref.segments, IsSegment s := by
  intro s hs
  rcases h with hc | ⟨hname, hid⟩
  · rw [List.mem_singleton.1 hs]
    exact hc
  · rcases List.mem_pair.1 hs with rfl | rfl
    · exact hname
    · exact hid

theorem IsAddress.isSegment_files {ref : JobRef} (h : ref.IsAddress) :
    ∀ s ∈ ref.segments ++ ["files"], IsSegment s := by
  intro s hs
  rcases List.mem_append.1 hs with hs | hs
  · exact h.isSegment s hs
  · rw [List.mem_singleton.1 hs]
    exact ⟨by decide, by decide⟩

theorem IsAddress.isSegment_records {ref : JobRef} (h : ref.IsAddress) {key : String}
    (hkey : IsSegment key) : ∀ s ∈ ref.segments ++ ["files", key, "records"], IsSegment s := by
  intro s hs
  simp only [List.mem_append, List.mem_cons, List.not_mem_nil, or_false] at hs
  rcases hs with hs | rfl | rfl | rfl
  · exact h.isSegment s hs
  · exact ⟨by decide, by decide⟩
  · exact hkey
  · exact ⟨by decide, by decide⟩

theorem joinWith_files (ref : JobRef) :
    Text.joinWith '/' (ref.segments ++ ["files"]) = ref.text ++ "/files" := by
  rw [Text.joinWith_append ref.segments_ne_nil (by simp), ref.joinWith_segments]
  simp [← String.toList_inj, Text.joinWith, Chars.joinWith]

theorem joinWith_records (ref : JobRef) (key : String) :
    Text.joinWith '/' (ref.segments ++ ["files", key, "records"]) =
      ref.text ++ "/files/" ++ key ++ "/records" := by
  rw [Text.joinWith_append ref.segments_ne_nil (by simp), ref.joinWith_segments]
  simp [← String.toList_inj, Text.joinWith, Chars.joinWith]

theorem refOf?_segments {ref : JobRef} (h : ref.IsAddress) :
    Target.refOf? ref.segments = some ref := by
  rcases h with _ | _ <;> rfl

end JobRef

namespace Target

/-- What a path can name. A job with the identifier `files` is shadowed. -/
inductive IsJobAddress : Target → Prop
  | job {ref : JobRef} (h : ref.IsAddress) (hfiles : ∀ name, ref ≠ .id (some name) "files") :
      IsJobAddress (.job ref)
  | spoolFiles {ref : JobRef} (h : ref.IsAddress) : IsJobAddress (.spoolFiles ref)
  | spoolFile {ref : JobRef} {key : FileKey} (h : ref.IsAddress) (hkey : key.IsSmall) :
      IsJobAddress (.spoolFile ref key)

/-- The path of a job, of its spool files, or of one of them. -/
def jobPath? : Target → Option String
  | .job ref => some ref.text
  | .spoolFiles ref => some (ref.text ++ "/files")
  | .spoolFile ref key => some (ref.text ++ "/files/" ++ key.text ++ "/records")
  | _ => none

/-- The texts of the path, which differ in how the key is written. -/
inductive IsJobPath : String → Target → Prop
  | job (ref : JobRef) : IsJobPath ref.text (.job ref)
  | spoolFiles (ref : JobRef) : IsJobPath (ref.text ++ "/files") (.spoolFiles ref)
  | spoolFile (ref : JobRef) {key : FileKey} {s : String} (h : key.IsWritten s) :
      IsJobPath (ref.text ++ "/files/" ++ s ++ "/records") (.spoolFile ref key)

/-- The segments of the path. -/
inductive IsNamedBy : Target → List String → Prop
  | job (ref : JobRef) : IsNamedBy (.job ref) ref.segments
  | spoolFiles (ref : JobRef) : IsNamedBy (.spoolFiles ref) (ref.segments ++ ["files"])
  | spoolFile (ref : JobRef) {key : FileKey} {s : String} (h : key.IsWritten s) :
      IsNamedBy (.spoolFile ref key) (ref.segments ++ ["files", s, "records"])

/-- The text is the path with slashes around it, or the path alone. -/
def InSlashes (raw path : String) : Prop :=
  ∃ lead tail, raw.toList = lead ++ (path.toList ++ tail) ∧ (∀ c ∈ lead, c = '/') ∧
    ∀ c ∈ tail, c = '/'

variable {raw path : String} {segments : List String} {t : Target}

/-! ## Segments -/

theorem joinWith_jobSegments (raw : String) :
    Text.joinWith '/' (jobSegments raw) = String.ofList (trimSlashes raw.toList) := by
  have hsplit : jobSegments raw = Text.splitAt '/' (String.ofList (trimSlashes raw.toList)) := by
    rw [Text.splitAt, String.toList_ofList, jobSegments]
  rw [hsplit, Text.joinWith_splitAt]

theorem inSlashes_joinWith (raw : String) :
    InSlashes raw (Text.joinWith '/' (jobSegments raw)) := by
  obtain ⟨lead, tail, hraw, hlead, htail⟩ := Chars.eq_append_stripBy (· == '/') raw.toList
  rw [← trimSlashes_eq_stripBy] at hraw
  refine ⟨lead, tail, ?_, fun c hc => eq_of_beq (hlead c hc), fun c hc => eq_of_beq (htail c hc)⟩
  rw [joinWith_jobSegments, String.toList_ofList]
  exact hraw

theorem head?_joinWith {s : String} (hs : s ≠ "") (rest : List String) :
    (Text.joinWith '/' (s :: rest)).toList.head? = s.toList.head? := by
  rcases rest with _ | ⟨next, rest⟩
  · simp [Text.joinWith, Chars.joinWith]
  · have hnil : s.toList ≠ [] := by simpa using hs
    simp [Text.joinWith, Chars.joinWith, List.head?_append_of_ne_nil _ hnil]

theorem getLast?_joinWith {s : String} (hs : s ≠ "") (front : List String) :
    (Text.joinWith '/' (front ++ [s])).toList.getLast? = s.toList.getLast? := by
  have hself : (Text.joinWith '/' [s]).toList = s.toList := by simp [Text.joinWith, Chars.joinWith]
  by_cases hfront : front = []
  · rw [hfront, List.nil_append, hself]
  · have hnil : s.toList ≠ [] := by simpa using hs
    rw [Text.joinWith_append hfront (by simp), String.toList_append, hself,
      List.getLast?_append_of_ne_nil _ hnil]

/-- No slash is at the ends of segments. -/
theorem joinWith_ends (hne : segments ≠ []) (h : ∀ s ∈ segments, IsSegment s) :
    (Text.joinWith '/' segments).toList ≠ [] ∧
      (∀ c ∈ (Text.joinWith '/' segments).toList.head?, (c == '/') = false) ∧
      ∀ c ∈ (Text.joinWith '/' segments).toList.getLast?, (c == '/') = false := by
  have hplain {s : String} (hs : s ∈ segments) {c : Char} (hc : c ∈ s.toList) :
      (c == '/') = false := by
    rw [beq_eq_false_iff_ne]
    rintro rfl
    exact (h s hs).whole hc
  refine ⟨?_, ?_, ?_⟩
  · obtain ⟨s, rest, rfl⟩ := List.exists_cons_of_ne_nil hne
    have hs := (h s List.mem_cons_self).counts
    intro hnil
    have hhead := head?_joinWith hs rest
    rw [hnil, eq_comm, List.head?_nil, List.head?_eq_none_iff] at hhead
    exact hs (by simpa using hhead)
  · obtain ⟨s, rest, rfl⟩ := List.exists_cons_of_ne_nil hne
    rw [head?_joinWith (h s List.mem_cons_self).counts]
    exact fun c hc => hplain List.mem_cons_self (List.mem_of_head? hc)
  · obtain ⟨front, s, rfl⟩ := (List.eq_nil_or_concat' segments).resolve_left hne
    have hs : s ∈ front ++ [s] := List.mem_append_right _ List.mem_cons_self
    rw [getLast?_joinWith (h s hs).counts]
    exact fun c hc => hplain hs (List.mem_of_getLast? hc)

/-- Segments in slashes are found again. -/
theorem jobSegments_of_inSlashes (hne : segments ≠ []) (h : ∀ s ∈ segments, IsSegment s)
    (hraw : InSlashes raw (Text.joinWith '/' segments)) : jobSegments raw = segments := by
  obtain ⟨lead, tail, htext, hlead, htail⟩ := hraw
  obtain ⟨hnil, hfirst, hlast⟩ := joinWith_ends hne h
  have htrim : trimSlashes raw.toList = (Text.joinWith '/' segments).toList := by
    rw [htext, trimSlashes_eq_stripBy]
    exact Chars.stripBy_around hnil hfirst hlast (fun c hc => beq_iff_eq.2 (hlead c hc))
      fun c hc => beq_iff_eq.2 (htail c hc)
  rw [jobSegments, htrim]
  exact Text.splitAt_joinWith hne fun s hs => (h s hs).whole

theorem whole_of_mem_jobSegments {s : String} (h : s ∈ jobSegments raw) : '/' ∉ s.toList := by
  obtain ⟨piece, hpiece, rfl⟩ := List.mem_map.1 h
  rw [String.toList_ofList]
  exact Chars.not_mem_of_mem_splitAt hpiece

/-- What the reader makes of segments. -/
theorem isNamedBy_of_ok (h : ofJobPath raw = .ok t) :
    t.IsJobAddress ∧ t.IsNamedBy (jobSegments raw) := by
  have hwhole : ∀ s ∈ jobSegments raw, '/' ∉ s.toList := fun _ => whole_of_mem_jobSegments
  unfold ofJobPath at h
  unfold jobSegments at hwhole ⊢
  generalize (Chars.splitAt '/' (trimSlashes raw.toList)).map String.ofList = segments
    at h hwhole ⊢
  simp only at h
  split at h
  · cases h
  rename_i hcounts
  have hsegment : ∀ s ∈ segments, IsSegment s := by
    intro s hs
    refine ⟨?_, hwhole s hs⟩
    rintro rfl
    exact hcounts (List.any_eq_true.2 ⟨"", hs, rfl⟩)
  have hfile {ref : JobRef} {s : String} (href : ref.IsAddress)
      (hread : (FileKey.ofText s).map (.spoolFile ref) = .ok t) :
      t.IsJobAddress ∧ t.IsNamedBy (ref.segments ++ ["files", s, "records"]) := by
    cases hkey : FileKey.ofText s with
    | error e =>
      rw [hkey] at hread
      cases hread
    | ok key =>
      have hwritten := FileKey.ofText_eq_ok_iff.1 hkey
      rw [hkey] at hread
      cases hread
      exact ⟨.spoolFile href hwritten.isSmall, .spoolFile ref hwritten⟩
  split at h
  · rename_i c
    cases h
    exact ⟨.job (.correlator (hsegment c (by simp))) nofun, .job (.correlator c)⟩
  · rename_i c
    cases h
    exact ⟨.spoolFiles (.correlator (hsegment c (by simp))), .spoolFiles (.correlator c)⟩
  · rename_i name id hid
    cases h
    have href : (JobRef.id (some name) id).IsAddress :=
      .id (hsegment name (by simp)) (hsegment id (by simp))
    refine ⟨.job href ?_, .job (.id (some name) id)⟩
    rintro other ⟨⟩
    exact hid rfl
  · rename_i name id
    cases h
    have href : (JobRef.id (some name) id).IsAddress :=
      .id (hsegment name (by simp)) (hsegment id (by simp))
    exact ⟨.spoolFiles href, .spoolFiles (.id (some name) id)⟩
  · rename_i c s
    exact hfile (.correlator (hsegment c (by simp))) h
  · rename_i name id s
    exact hfile (.id (hsegment name (by simp)) (hsegment id (by simp))) h
  · cases h

theorem IsNamedBy.isSegment (h : t.IsNamedBy segments) (haddress : t.IsJobAddress) :
    ∀ s ∈ segments, IsSegment s := by
  rcases h with ref | ref | ⟨ref, hkey⟩
  · rcases haddress with ⟨href, _⟩
    exact href.isSegment
  · rcases haddress with _ | href
    exact href.isSegment_files
  · rcases haddress with _ | _ | ⟨href, _⟩
    exact href.isSegment_records hkey.isSegment

theorem any_empty_eq_false (h : ∀ s ∈ segments, IsSegment s) :
    segments.any (· == "") = false :=
  any_eq_false_of_not_mem fun hmem => (h "" hmem).counts rfl

theorem IsNamedBy.ne_nil (h : t.IsNamedBy segments) : segments ≠ [] := by
  rcases h with ref | ref | ⟨ref, _⟩
  · exact ref.segments_ne_nil
  · simp
  · simp

theorem ofJobPath_of_records {ref : JobRef} {key : String} (href : ref.IsAddress)
    (hkey : IsSegment key) (h : jobSegments raw = ref.segments ++ ["files", key, "records"]) :
    ofJobPath raw = (FileKey.ofText key).map (Target.spoolFile ref) := by
  have hplain := any_empty_eq_false (href.isSegment_records hkey)
  unfold jobSegments at h
  simp only [ofJobPath, h, hplain, Bool.false_eq_true, if_false]
  rcases href with _ | _ <;> simp [JobRef.segments]

theorem ofJobPath_of_ref {ref : JobRef} (href : ref.IsAddress)
    (hfiles : ∀ name, ref ≠ .id (some name) "files") (h : jobSegments raw = ref.segments) :
    ofJobPath raw = .ok (.job ref) := by
  have hplain := any_empty_eq_false href.isSegment
  unfold jobSegments at h
  simp only [ofJobPath, h, hplain, Bool.false_eq_true, if_false]
  rcases href with _ | _
  · rfl
  · rename_i name id _ _
    -- The reader looks for the word first.
    have hid : id ≠ "files" := by
      rintro rfl
      exact hfiles name rfl
    simp [JobRef.segments]

/-- No segments of an address are read as another one. -/
theorem IsNamedBy.ok (h : t.IsNamedBy (jobSegments raw)) (haddress : t.IsJobAddress) :
    ofJobPath raw = .ok t := by
  generalize hall : jobSegments raw = segments at h
  rcases h with ref | ref | ⟨ref, hkey⟩
  · rcases haddress with ⟨href, hfiles⟩
    exact ofJobPath_of_ref href hfiles hall
  · rcases haddress with _ | href
    have hplain : "" ∉ ref.segments := fun hmem => (href.isSegment "" hmem).counts rfl
    rw [ofJobPath_of_files hall ref.segments_ne_nil hplain, JobRef.refOf?_segments href]
  · rcases haddress with _ | _ | ⟨href, _⟩
    rw [ofJobPath_of_records href hkey.isSegment hall, FileKey.ofText_eq_ok_iff.2 hkey]
    rfl

/-! ## Texts -/

theorem isJobPath_iff :
    IsJobPath path t ↔ ∃ segments, t.IsNamedBy segments ∧ Text.joinWith '/' segments = path := by
  constructor
  · rintro (ref | ref | ⟨ref, hkey⟩)
    · exact ⟨_, .job ref, ref.joinWith_segments⟩
    · exact ⟨_, .spoolFiles ref, ref.joinWith_files⟩
    · exact ⟨_, .spoolFile ref hkey, ref.joinWith_records _⟩
  · rintro ⟨segments, ref | ref | ⟨ref, hkey⟩, rfl⟩
    · rw [ref.joinWith_segments]
      exact .job ref
    · rw [ref.joinWith_files]
      exact .spoolFiles ref
    · rw [ref.joinWith_records]
      exact .spoolFile ref hkey

theorem jobPath_eq_ok_iff :
    ofJobPath raw = .ok t ↔ t.IsJobAddress ∧ ∃ path, IsJobPath path t ∧ InSlashes raw path := by
  constructor
  · intro h
    obtain ⟨haddress, hnamed⟩ := isNamedBy_of_ok h
    exact ⟨haddress, _, isJobPath_iff.2 ⟨_, hnamed, rfl⟩, inSlashes_joinWith raw⟩
  · rintro ⟨haddress, path, hpath, hraw⟩
    obtain ⟨segments, hnamed, rfl⟩ := isJobPath_iff.1 hpath
    rw [← jobSegments_of_inSlashes hnamed.ne_nil (hnamed.isSegment haddress) hraw] at hnamed
    exact hnamed.ok haddress

theorem ok_of_jobPath (h : t.IsJobAddress) :
    ∃ path, t.jobPath? = some path ∧ ofJobPath path = .ok t := by
  have hpath : ∃ path, t.jobPath? = some path ∧ IsJobPath path t := by
    rcases h with _ | _ | ⟨_, hkey⟩
    · exact ⟨_, rfl, .job _⟩
    · exact ⟨_, rfl, .spoolFiles _⟩
    · exact ⟨_, rfl, .spoolFile _ (FileKey.isWritten_text hkey)⟩
  obtain ⟨path, hsome, hpath⟩ := hpath
  have hself : InSlashes path path := ⟨[], [], by simp, nofun, nofun⟩
  exact ⟨path, hsome, jobPath_eq_ok_iff.2 ⟨h, path, hpath, hself⟩⟩

/-! ## Refused paths -/

/-- Two slashes in the middle of a path have nothing between them. -/
theorem jobPath_of_empty_segment {front back : List Char}
    (h : raw.toList = front ++ '/' :: '/' :: back) (hfront : ∃ c ∈ front, c ≠ '/')
    (hback : ∃ c ∈ back, c ≠ '/') : ofJobPath raw = .error (.jobPath raw) := by
  have hplain {s : List Char} (hs : ∃ c ∈ s, c ≠ '/') : ∃ c ∈ s, (c == '/') = false := by
    simpa using hs
  have htrim := Chars.stripBy_append (hplain hfront) (hplain hback) ['/', '/']
  rw [← trimSlashes_eq_stripBy] at htrim
  apply ofJobPath_of_empty
  rw [jobSegments, h]
  show "" ∈ (Chars.splitAt '/' (trimSlashes (front ++ (['/', '/'] ++ back)))).map String.ofList
  rw [htrim]
  show "" ∈ (Chars.splitAt '/' (_ ++ '/' :: ([] ++ '/' :: _))).map String.ofList
  rw [Chars.splitAt_append, Chars.splitAt_append]
  simp [Chars.splitAt, Chars.splitBy]

/-- Between `files` and `records` stands a key. -/
theorem jobPath_of_no_key {ref : JobRef} {key : String} (href : ref.IsAddress)
    (hsegment : IsSegment key) (hkey : ∀ k, ¬FileKey.IsWritten key k)
    (hraw : InSlashes raw (ref.text ++ "/files/" ++ key ++ "/records")) :
    ofJobPath raw = .error .fileKey := by
  rw [← ref.joinWith_records] at hraw
  have hsegments := jobSegments_of_inSlashes (by simp) (href.isSegment_records hsegment) hraw
  rw [ofJobPath_of_records href hsegment hsegments, FileKey.ofText_eq_error hkey]
  rfl

/-! ## Readings -/

/-- What a path can name has a path, and it is read as that. A path is read as
what it is the path of, up to the slashes at its ends and the writing of a key,
and every other one is refused: one with an empty segment inside, and one with
no key where a key belongs, to name two. -/
theorem job_paths_have_one_reading :
    (∀ t : Target, t.IsJobAddress → ∃ path, t.jobPath? = some path ∧ ofJobPath path = .ok t) ∧
    ∀ raw,
      (∀ t, ofJobPath raw = .ok t ↔
        t.IsJobAddress ∧ ∃ path, IsJobPath path t ∧ InSlashes raw path) ∧
      (∀ front back, raw.toList = front ++ '/' :: '/' :: back → (∃ c ∈ front, c ≠ '/') →
        (∃ c ∈ back, c ≠ '/') → ofJobPath raw = .error (.jobPath raw)) ∧
      ∀ (ref : JobRef) (key : String), ref.IsAddress → IsSegment key →
        (∀ k, ¬FileKey.IsWritten key k) →
        InSlashes raw (ref.text ++ "/files/" ++ key ++ "/records") →
        ofJobPath raw = .error .fileKey :=
  ⟨fun _ => ok_of_jobPath, fun _ => ⟨fun _ => jobPath_eq_ok_iff,
    fun _ _ => jobPath_of_empty_segment, fun _ _ => jobPath_of_no_key⟩⟩

/-- The word may be a name and an identifier, in front of itself. Zeros in front
of a key are read over, and a sign is not. -/
theorem files_of_files_are_read :
    (∃ path, jobPath? (.spoolFile (.id (some "files") "files") (.number 7)) = some path ∧
      ofJobPath path = .ok (.spoolFile (.id (some "files") "files") (.number 7))) ∧
    ofJobPath "/files/files/files/007/records//" =
      .ok (.spoolFile (.id (some "files") "files") (.number 7)) ∧
    ofJobPath "/J//1" = .error (.jobPath "/J//1") ∧
    ofJobPath "J/files/+1/records" = .error .fileKey := by
  obtain ⟨hprinted, hread⟩ := job_paths_have_one_reading
  have hword : IsSegment "files" := ⟨by decide, by decide⟩
  have haddress : IsJobAddress (.spoolFile (.id (some "files") "files") (.number 7)) := by
    refine .spoolFile (.id hword hword) ?_
    rintro n ⟨⟩
    decide
  refine ⟨hprinted _ haddress, ?_, ?_, ?_⟩
  · obtain ⟨hok, _⟩ := hread "/files/files/files/007/records//"
    have hkey : FileKey.IsWritten "007" (.number 7) := .number 2 (by decide) (by decide)
    refine (hok _).2 ⟨haddress, _, .spoolFile _ hkey, ['/'], ['/', '/'], by decide, ?_, ?_⟩
    · simp
    · simp
  · obtain ⟨_, hempty, _⟩ := hread "/J//1"
    exact hempty ['/', 'J'] ['1'] (by decide) ⟨'J', by simp, by decide⟩ ⟨'1', by simp, by decide⟩
  · obtain ⟨_, _, hkey⟩ := hread "J/files/+1/records"
    refine hkey (.correlator "J") "+1" (.correlator ⟨by decide, by decide⟩)
      ⟨by decide, by decide⟩ ?_ ⟨[], [], by decide, nofun, nofun⟩
    intro k hk
    have hrefused : FileKey.ofText "+1" = .error .fileKey := rfl
    rw [FileKey.ofText_eq_ok_iff.2 hk] at hrefused
    cases hrefused

end Target

end MvsGateway
