import Mathlib.Data.List.Basic
import MvsGateway.Target.Reader

/-!
# Paths of jobs

The path of a job is read by its segments: one is a correlator, two are a name
and an identifier. The name in front of an identifier may be any text, also an
empty one, as long as it is not more than one segment.
-/

namespace MvsGateway.Target

/-- What stands between the slashes of a path. Slashes at its ends do not
count. -/
def jobSegments (raw : String) : List String :=
  (Chars.splitAt '/' (trimSlashes raw.toList)).map String.ofList

/-- The job that segments name. -/
def refOf? : List String → Option JobRef
  | [correlator] => some (.correlator correlator)
  | [name, id] => some (.id (some name) id)
  | _ => none

/-- A text that is one segment, and is not taken for the spool files of a job
or for their records. -/
structure IsJobSegment (s : String) : Prop where
  whole : '/' ∉ s.toList
  counts : s ≠ ""
  noFiles : s ≠ "files"
  noRecords : s ≠ "records"

variable {raw name s : String} {segments : List String}

/-! ## Segments and targets -/

theorem ofJobPath_of_empty (h : "" ∈ jobSegments raw) : ofJobPath raw = .error (.jobPath raw) := by
  have hany : (jobSegments raw).any (· == "") = true := List.any_eq_true.2 ⟨"", h, rfl⟩
  unfold jobSegments at hany
  simp only [ofJobPath, hany, if_true]

theorem any_eq_false_of_not_mem (h : "" ∉ segments) : segments.any (· == "") = false := by
  rw [List.any_eq_false]
  intro t ht hempty
  rw [beq_iff_eq.1 hempty] at ht
  exact h ht

theorem refOf?_eq_none (hone : ∀ c, segments ≠ [c]) (htwo : ∀ n i, segments ≠ [n, i]) :
    refOf? segments = none := by
  unfold refOf?
  split
  · exact absurd rfl (hone _)
  · exact absurd rfl (htwo _ _)
  · rfl

theorem ofJobPath_of_job (h : jobSegments raw = segments ++ [s]) (hs : IsJobSegment s)
    (hplain : "" ∉ segments) :
    ofJobPath raw = match refOf? (segments ++ [s]) with
      | some ref => .ok (.job ref)
      | none => .error (.jobResource raw) := by
  have hany : (segments ++ [s]).any (· == "") = false := by
    apply any_eq_false_of_not_mem
    simp [hplain, hs.counts.symm]
  have hlast : (segments ++ [s]).getLast? = some s := List.getLast?_concat
  unfold jobSegments at h
  simp only [ofJobPath, h, hany, Bool.false_eq_true, if_false]
  -- A target other than a job has a word for the last segment that `s` is not.
  generalize segments ++ [s] = all at hlast
  split
  · rfl
  · exact absurd (Option.some.inj hlast).symm hs.noFiles
  · rfl
  · exact absurd (Option.some.inj hlast).symm hs.noFiles
  · exact absurd (Option.some.inj hlast).symm hs.noRecords
  · exact absurd (Option.some.inj hlast).symm hs.noRecords
  · rename_i hone _ htwo _ _ _
    rw [refOf?_eq_none hone htwo]

theorem ofJobPath_of_files (h : jobSegments raw = segments ++ ["files"]) (hne : segments ≠ [])
    (hplain : "" ∉ segments) :
    ofJobPath raw = match refOf? segments with
      | some ref => .ok (.spoolFiles ref)
      | none => .error (.jobResource raw) := by
  have hany : (segments ++ ["files"]).any (· == "") = false := by
    apply any_eq_false_of_not_mem
    simp [hplain]
  unfold jobSegments at h
  simp only [ofJobPath, h, hany, Bool.false_eq_true, if_false]
  have hlast : (segments ++ ["files"]).getLast? = some "files" := List.getLast?_concat
  have hfront : (segments ++ ["files"]).dropLast = segments := List.dropLast_concat
  generalize hall : segments ++ ["files"] = all at hlast hfront
  split
  · exact absurd hfront.symm hne
  · rw [← hfront]
    rfl
  · rename_i hother
    exact (hother (Option.some.inj hlast)).elim
  · rw [← hfront]
    rfl
  · simp at hlast
  · simp at hlast
  · rename_i _ hone _ htwo _ _
    rw [refOf?_eq_none]
    · rintro c rfl
      exact hone c hall.symm
    · rintro n i rfl
      exact htwo n i hall.symm

/-! ## Paths and segments -/

/-- A text without the slashes in front. -/
def withoutLead (s : String) : List Char := s.toList.dropWhile (· == '/')

theorem dropWhile_slash_eq_self {s : List Char} (h : s.head? ≠ some '/') :
    s.dropWhile (· == '/') = s := by
  apply Chars.dropWhile_eq_self
  intro c hc
  rw [beq_eq_false_iff_ne]
  rintro rfl
  exact h hc

theorem trimSlashes_eq_stripBy (s : List Char) : trimSlashes s = Chars.stripBy (· == '/') s := rfl

theorem trimSlashes_of_last {s : List Char} (h : s.getLast? ≠ some '/') :
    trimSlashes s = s.dropWhile (· == '/') := by
  rw [trimSlashes_eq_stripBy]
  apply Chars.stripBy_of_last
  intro c hc
  rw [beq_eq_false_iff_ne]
  rintro rfl
  exact h hc

/-- The segments that a text adds in front of others. -/
def frontSegments (name : String) : List String :=
  if withoutLead name = [] then []
  else (Chars.splitAt '/' (withoutLead name)).map String.ofList

theorem jobSegments_append {tail : String} (hhead : tail.toList.head? ≠ some '/')
    (hlast : tail.toList.getLast? ≠ some '/') (hne : tail ≠ "") :
    jobSegments (name ++ "/" ++ tail) = frontSegments name ++ Text.splitAt '/' tail := by
  have hchars : (name ++ "/" ++ tail).toList = name.toList ++ '/' :: tail.toList := by simp
  have hnil : tail.toList ≠ [] := by simpa using hne
  have hend : (name.toList ++ '/' :: tail.toList).getLast? ≠ some '/' := by
    rw [List.getLast?_append_of_ne_nil _ (by simp), List.getLast?_cons_of_ne_nil hnil]
    exact hlast
  have htail := dropWhile_slash_eq_self hhead
  unfold jobSegments frontSegments withoutLead Text.splitAt
  rw [hchars, trimSlashes_of_last hend, List.dropWhile_append]
  by_cases hlead : name.toList.dropWhile (· == '/') = []
  · simp [hlead, htail]
  · have hempty : (name.toList.dropWhile (· == '/')).isEmpty = false := by simpa using hlead
    rw [if_neg (by simp [hempty]), if_neg hlead, Chars.splitAt_append, List.map_append]

/-- A name that is one segment, or none. -/
theorem frontSegments_of_whole (h : '/' ∉ withoutLead name) :
    frontSegments name = [] ∨ ∃ n, n ≠ "" ∧ frontSegments name = [n] := by
  unfold frontSegments
  by_cases hlead : withoutLead name = []
  · exact .inl (if_pos hlead)
  · refine .inr ⟨String.ofList (withoutLead name), ?_, ?_⟩
    · simpa using hlead
    · rw [if_neg hlead, Chars.splitAt_of_not_mem h]
      rfl

theorem length_frontSegments (h : '/' ∈ withoutLead name) : 1 < (frontSegments name).length := by
  have hlead : withoutLead name ≠ [] := List.ne_nil_of_mem h
  obtain ⟨front, back, hsplit⟩ := List.append_of_mem h
  have hfront := List.length_pos_iff.2 (Chars.splitBy_ne_nil (· == '/') front)
  have hback := List.length_pos_iff.2 (Chars.splitBy_ne_nil (· == '/') back)
  rw [frontSegments, if_neg hlead, hsplit, Chars.splitAt_append, List.length_map,
    List.length_append, Chars.splitAt, Chars.splitAt]
  omega

theorem refOf?_of_long (h : 2 < segments.length) : refOf? segments = none := by
  apply refOf?_eq_none
  · rintro c rfl
    simp at h
  · rintro n i rfl
    simp at h

namespace IsJobSegment

variable (hs : IsJobSegment s)

include hs

theorem toList_ne_nil : s.toList ≠ [] := by simpa using hs.counts

theorem head?_ne : s.toList.head? ≠ some '/' := fun h => hs.whole (List.mem_of_head? h)

theorem getLast?_ne : s.toList.getLast? ≠ some '/' := fun h => hs.whole (List.mem_of_getLast? h)

theorem splitAt_eq : Text.splitAt '/' s = [s] := by
  rw [Text.splitAt, Chars.splitAt_of_not_mem hs.whole, List.map_singleton, String.ofList_toList]

theorem splitAt_files : Text.splitAt '/' (s ++ "/files") = [s, "files"] := by
  have hchars : (s ++ "/files").toList = s.toList ++ '/' :: "files".toList := by simp
  rw [Text.splitAt, hchars, Chars.splitAt_append, List.map_append]
  show Text.splitAt '/' s ++ ["files"] = _
  rw [hs.splitAt_eq]
  rfl

theorem jobSegments_job (name : String) :
    jobSegments (name ++ "/" ++ s) = frontSegments name ++ [s] := by
  rw [jobSegments_append hs.head?_ne hs.getLast?_ne hs.counts, hs.splitAt_eq]

theorem jobSegments_files (name : String) :
    jobSegments (name ++ "/" ++ s ++ "/files") = frontSegments name ++ [s] ++ ["files"] := by
  have hhead : (s ++ "/files").toList.head? ≠ some '/' := by
    rw [String.toList_append, List.head?_append_of_ne_nil _ hs.toList_ne_nil]
    exact hs.head?_ne
  have hlast : (s ++ "/files").toList.getLast? ≠ some '/' := by
    rw [String.toList_append, List.getLast?_append_of_ne_nil _ (by simp)]
    decide
  rw [String.append_assoc, jobSegments_append hhead hlast (by simp), hs.splitAt_files,
    List.append_assoc]
  rfl

/-- A segment behind a name that is one segment at most is read as what the
host knows the job by. -/
theorem ofJobPath_behind_name (h : '/' ∉ withoutLead name) :
    ∃ ref, ref.hostId = s ∧ ofJobPath (name ++ "/" ++ s) = .ok (.job ref) ∧
      ofJobPath (name ++ "/" ++ s ++ "/files") = .ok (.spoolFiles ref) := by
  have hjob := hs.jobSegments_job name
  have hfiles := hs.jobSegments_files name
  rcases frontSegments_of_whole h with hnone | ⟨n, hn, hone⟩
  · rw [hnone] at hjob hfiles
    refine ⟨.correlator s, rfl, ofJobPath_of_job hjob hs nofun, ?_⟩
    exact ofJobPath_of_files hfiles nofun (by simpa using hs.counts.symm)
  · rw [hone] at hjob hfiles
    refine ⟨.id (some n) s, rfl, ofJobPath_of_job hjob hs (by simpa using hn.symm), ?_⟩
    exact ofJobPath_of_files hfiles nofun (by simp [hn.symm, hs.counts.symm])

/-- Behind a name of more segments it names nothing. -/
theorem ofJobPath_behind_segments (h : '/' ∈ withoutLead name) :
    (∃ e, ofJobPath (name ++ "/" ++ s) = .error e) ∧
      ∃ e, ofJobPath (name ++ "/" ++ s ++ "/files") = .error e := by
  have hjob := hs.jobSegments_job name
  have hfiles := hs.jobSegments_files name
  have hlong : 2 < (frontSegments name ++ [s]).length := by
    have := length_frontSegments h
    rw [List.length_append, List.length_singleton]
    omega
  by_cases hempty : "" ∈ frontSegments name
  · refine ⟨⟨_, ofJobPath_of_empty ?_⟩, ⟨_, ofJobPath_of_empty ?_⟩⟩
    · rw [hjob]
      exact List.mem_append_left _ hempty
    · rw [hfiles, List.append_assoc]
      exact List.mem_append_left _ hempty
  · have hplain : "" ∉ frontSegments name ++ [s] := by simp [hempty, hs.counts.symm]
    have hnone := refOf?_of_long hlong
    constructor
    · rw [ofJobPath_of_job hjob hs hempty, hnone]
      exact ⟨_, rfl⟩
    · rw [ofJobPath_of_files hfiles (by simp) hplain, hnone]
      exact ⟨_, rfl⟩

/-- Alone it is read as a correlator. -/
theorem ofJobPath_alone : ofJobPath s = .ok (.job (.correlator s)) ∧
    ofJobPath (s ++ "/files") = .ok (.spoolFiles (.correlator s)) := by
  have hlead := dropWhile_slash_eq_self hs.head?_ne
  have hjob : jobSegments s = [] ++ [s] := by
    rw [jobSegments, trimSlashes_of_last hs.getLast?_ne, hlead]
    exact hs.splitAt_eq
  have hfront : frontSegments s = [s] := by
    rw [frontSegments, withoutLead, hlead, if_neg hs.toList_ne_nil]
    exact hs.splitAt_eq
  have hfiles : jobSegments (s ++ "/" ++ "files") = [s] ++ ["files"] := by
    rw [jobSegments_append (by decide) (by decide) (by decide), hfront]
    rfl
  refine ⟨ofJobPath_of_job hjob hs nofun, ?_⟩
  have hpath : s ++ "/files" = s ++ "/" ++ "files" := by
    rw [String.append_assoc]
    rfl
  rw [hpath]
  exact ofJobPath_of_files hfiles nofun (by simpa using hs.counts.symm)

end IsJobSegment

end MvsGateway.Target
