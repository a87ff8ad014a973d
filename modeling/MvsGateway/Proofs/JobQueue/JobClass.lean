import Mathlib.Data.List.Basic
import MvsGateway.Proofs.JobQueue.Identity

/-!
# The class of a job

A text declares the class of its job behind the word `CLASS=`, where that is a
keyword of its own in a statement. The class that a job gets is looked for in a
simpler way: on each line the first place with the word decides, also in a
comment and behind other letters, and no other place of the line is looked at.
-/

namespace MvsGateway

namespace Chars

/-- The text before and after each occurrence of `sep`, from the first one on. -/
def cutsAt (sep : List Char) : List Char → List (List Char × List Char)
  | [] => []
  | c :: r =>
    let later := (cutsAt sep r).map fun (before, after) => (c :: before, after)
    if sep.isPrefixOf (c :: r) then ([], (c :: r).drop sep.length) :: later else later

variable {sep s before after : List Char}

theorem head?_cutsAt (sep s : List Char) : (cutsAt sep s).head? = cutAt sep s := by
  induction s with
  | nil => rfl
  | cons c r ih =>
    unfold cutsAt
    rw [cutAt, cutWhere]
    split
    · rfl
    · rw [List.head?_map, ih, cutAt, Option.map_map, Option.map_map]
      rfl

theorem mem_cutsAt_iff (hsep : sep ≠ []) :
    (before, after) ∈ cutsAt sep s ↔ s = before ++ (sep ++ after) := by
  induction s generalizing before with
  | nil =>
    refine iff_of_false List.not_mem_nil ?_
    intro hs
    exact hsep (List.append_eq_nil_iff.1 (List.append_eq_nil_iff.1 hs.symm).2).1
  | cons c r ih =>
    have hlater : (before, after) ∈ (cutsAt sep r).map (fun (b, a) => (c :: b, a)) ↔
        ∃ b, before = c :: b ∧ r = b ++ (sep ++ after) := by
      simp only [List.mem_map, Prod.exists, Prod.mk.injEq, ← ih]
      constructor
      · rintro ⟨b, a, hmem, rfl, rfl⟩
        exact ⟨b, rfl, hmem⟩
      · rintro ⟨b, rfl, hmem⟩
        exact ⟨b, after, hmem, rfl, rfl⟩
    have hfirst : before = [] ∧ c :: r = sep ++ after ↔
        sep.isPrefixOf (c :: r) = true ∧ (before, after) = ([], (c :: r).drop sep.length) := by
      rw [List.isPrefixOf_iff_prefix]
      constructor
      · rintro ⟨rfl, hs⟩
        rw [hs, List.drop_left]
        exact ⟨List.prefix_append _ _, rfl⟩
      · rintro ⟨⟨rest, hrest⟩, hsame⟩
        cases hsame
        rw [← hrest, List.drop_left]
        exact ⟨rfl, rfl⟩
    have hboth : c :: r = before ++ (sep ++ after) ↔
        before = [] ∧ c :: r = sep ++ after ∨ ∃ b, before = c :: b ∧ r = b ++ (sep ++ after) := by
      cases before with
      | nil => simp
      | cons d b => simp [eq_comm]
    rw [hboth, hfirst, ← hlater, cutsAt]
    by_cases hstarts : sep.isPrefixOf (c :: r) = true
    · simp only [hstarts, if_true, List.mem_cons, true_and]
    · simp only [hstarts, Bool.false_eq_true, if_false, false_and, false_or]

theorem pairwise_cutsAt (sep s : List Char) :
    (cutsAt sep s).Pairwise fun x y => x.1.length < y.1.length := by
  induction s with
  | nil => exact List.Pairwise.nil
  | cons c r ih =>
    have hlater : ((cutsAt sep r).map fun (b, a) => (c :: b, a)).Pairwise
        fun x y => x.1.length < y.1.length := by
      rw [List.pairwise_map]
      exact ih.imp fun h => Nat.succ_lt_succ h
    unfold cutsAt
    split
    · refine List.pairwise_cons.2 ⟨?_, hlater⟩
      intro y hy
      obtain ⟨x, _, rfl⟩ := List.mem_map.1 hy
      exact Nat.succ_pos _
    · exact hlater

end Chars

namespace Host.Jcl

/-! ## Places with the word -/

/-- A place where the word stands: the number of the line and whether that is a
comment, and what stands before and behind the word, in upper case. -/
structure Mention where
  line : Nat
  comment : Bool
  before : List Char
  after : List Char
  deriving DecidableEq

namespace Mention

/-- The word is not the end of a longer one, and the line is no comment. -/
def isKeyword (m : Mention) : Bool := !m.comment && !m.before.getLast?.any Char.isAlphanum

/-- The letter or digit behind the word. -/
def class? (m : Mention) : Option Char := m.after.head?.filter Char.isAlphanum

def declares (m : Mention) : Bool := m.isKeyword && m.class?.isSome

/-- The order in which one comes across two places. -/
def Precedes (m k : Mention) : Prop :=
  m.line < k.line ∨ m.line = k.line ∧ m.before.length < k.before.length

end Mention

def isComment (line : List Char) : Bool := ['/', '/', '*'].isPrefixOf (Chars.trim line)

def lineMentions (number : Nat) (line : List Char) : List Mention :=
  (Chars.cutsAt classKeyword (line.map Char.toUpper)).map fun (before, after) =>
    ⟨number, isComment line, before, after⟩

/-- The places of lines that are numbered from `number`, line by line. -/
def mentionsFrom (number : Nat) : List (List Char) → List (List Mention)
  | [] => []
  | line :: lines => lineMentions number line :: mentionsFrom (number + 1) lines

def mentions (jcl : String) : List (List Mention) := mentionsFrom 0 (Chars.lines jcl.toList)

/-- The place that the class is read at: the first one of a line, on the first
line where that gives a class. -/
def read? (lines : List (List Mention)) : Option Mention :=
  lines.findSome? fun line => line.head?.filter (·.class?.isSome)

/-- The first place where a class is declared. -/
def declared? (lines : List (List Mention)) : Option Mention :=
  lines.flatten.find? Mention.declares

/-- The class at a place, and `A` without one. -/
def classAt (m : Option Mention) : Char := (m.bind Mention.class?).getD 'A'

/-- The class is not read where it is declared. Either the first place of a
line gives a class and is no keyword, or it gives none and hides a declaration
behind it. The lines before say nothing. -/
inductive IsMisread : List (List Mention) → Prop
  | foreign {m : Mention} {line : List Mention} {lines : List (List Mention)}
      (given : m.class?.isSome = true) (other : m.isKeyword = false) :
      IsMisread ((m :: line) :: lines)
  | hidden {m k : Mention} {line : List Mention} {lines : List (List Mention)}
      (empty : m.class? = none) (behind : k ∈ line) (declared : k.declares = true) :
      IsMisread ((m :: line) :: lines)
  | later {line : List Mention} {lines : List (List Mention)}
      (unread : ∀ m ∈ line.head?, m.class? = none) (silent : ∀ k ∈ line, k.declares = false)
      (rest : IsMisread lines) : IsMisread (line :: lines)

/-! ## All places of a text -/

/-- The word stands at the place. -/
def Mention.IsIn (m : Mention) (jcl : String) : Prop :=
  ∃ line, (Chars.lines jcl.toList)[m.line]? = some line ∧ m.comment = isComment line ∧
    line.map Char.toUpper = m.before ++ (classKeyword ++ m.after)

theorem mem_lineMentions_iff {number : Nat} {line : List Char} {m : Mention} :
    m ∈ lineMentions number line ↔ m.line = number ∧ m.comment = isComment line ∧
      line.map Char.toUpper = m.before ++ (classKeyword ++ m.after) := by
  have hword : classKeyword ≠ [] := List.cons_ne_nil _ _
  rw [← Chars.mem_cutsAt_iff hword, lineMentions, List.mem_map]
  constructor
  · rintro ⟨cut, hcut, rfl⟩
    exact ⟨rfl, rfl, hcut⟩
  · rintro ⟨rfl, hcomment, hcut⟩
    refine ⟨_, hcut, ?_⟩
    rw [← hcomment]

theorem mem_mentionsFrom_iff {number : Nat} {lines : List (List Char)} {m : Mention} :
    m ∈ (mentionsFrom number lines).flatten ↔
      ∃ i line, m.line = number + i ∧ lines[i]? = some line ∧ m.comment = isComment line ∧
        line.map Char.toUpper = m.before ++ (classKeyword ++ m.after) := by
  induction lines generalizing number with
  | nil => simp [mentionsFrom]
  | cons first lines ih =>
    rw [mentionsFrom, List.flatten_cons, List.mem_append, mem_lineMentions_iff, ih]
    constructor
    · rintro (⟨hnumber, hplace⟩ | ⟨i, line, hnumber, hline, hplace⟩)
      · exact ⟨0, first, hnumber, rfl, hplace⟩
      · exact ⟨i + 1, line, by omega, hline, hplace⟩
    · rintro ⟨_ | i, line, hnumber, hline, hplace⟩
      · cases hline
        exact .inl ⟨hnumber, hplace⟩
      · exact .inr ⟨i, line, by omega, hline, hplace⟩

theorem mem_mentions_iff {jcl : String} {m : Mention} :
    m ∈ (mentions jcl).flatten ↔ m.IsIn jcl := by
  rw [mentions, mem_mentionsFrom_iff]
  constructor
  · rintro ⟨i, line, hnumber, hplace⟩
    rw [Nat.zero_add] at hnumber
    subst hnumber
    exact ⟨line, hplace⟩
  · rintro ⟨line, hplace⟩
    exact ⟨m.line, line, (Nat.zero_add _).symm, hplace⟩

/-- Later lines have greater numbers. -/
theorem lt_of_mem_mentionsFrom {number : Nat} {lines : List (List Char)} {m : Mention}
    (h : m ∈ (mentionsFrom (number + 1) lines).flatten) : number < m.line := by
  obtain ⟨i, _, hnumber, _⟩ := mem_mentionsFrom_iff.1 h
  omega

theorem pairwise_mentionsFrom (number : Nat) (lines : List (List Char)) :
    (mentionsFrom number lines).flatten.Pairwise Mention.Precedes := by
  induction lines generalizing number with
  | nil => exact List.Pairwise.nil
  | cons first lines ih =>
    rw [mentionsFrom, List.flatten_cons, List.pairwise_append]
    refine ⟨?_, ih (number + 1), ?_⟩
    · rw [lineMentions, List.pairwise_map]
      exact (Chars.pairwise_cutsAt _ _).imp fun h => .inr ⟨rfl, h⟩
    · intro m hm k hk
      have hlater := lt_of_mem_mentionsFrom hk
      rw [← (mem_lineMentions_iff.1 hm).1] at hlater
      exact .inl hlater

/-! ## The class that is read -/

theorem classOf?_eq (number : Nat) (line : List Char) :
    classOf? line = (lineMentions number line).head?.bind Mention.class? := by
  rw [lineMentions, List.head?_map, Chars.head?_cutsAt, classOf?]
  cases Chars.cutAt classKeyword (line.map Char.toUpper) with
  | none => rfl
  | some cut =>
    obtain ⟨before, _ | ⟨c, after⟩⟩ := cut
    · rfl
    · rfl

section Lines

variable {m : Mention} {line : List Mention} {lines : List (List Mention)}

theorem read?_of_class (h : m.class?.isSome = true) : read? ((m :: line) :: lines) = some m := by
  simp [read?, Option.filter, h]

theorem read?_of_no_class (h : ∀ m ∈ line.head?, m.class? = none) :
    read? (line :: lines) = read? lines := by
  have hunread : line.head?.filter (·.class?.isSome) = none := by
    rw [Option.filter_eq_none_iff]
    intro m hm
    rw [h m hm]
    exact Bool.false_ne_true
  rw [read?, List.findSome?_cons, hunread]
  rfl

theorem read?_bind_class? (lines : List (List Mention)) :
    (read? lines).bind Mention.class? =
      lines.findSome? fun line => line.head?.bind Mention.class? := by
  induction lines with
  | nil => rfl
  | cons line lines ih =>
    rw [List.findSome?_cons]
    cases hclass : line.head?.bind Mention.class? with
    | none =>
      rw [read?_of_no_class (Option.bind_eq_none_iff.1 hclass), ih]
    | some c =>
      obtain ⟨m, hm, hc⟩ := Option.bind_eq_some_iff.1 hclass
      obtain ⟨rest, rfl⟩ := List.head?_eq_some_iff.1 hm
      rw [read?_of_class (by rw [hc]; rfl), Option.bind_some, hc]

theorem mem_of_read? (h : read? lines = some m) : m ∈ lines.flatten := by
  obtain ⟨line, hline, hread⟩ := List.exists_of_findSome?_eq_some h
  have hhead := (Option.filter_eq_some_iff.1 hread).1
  exact List.mem_flatten.2 ⟨line, hline, List.mem_of_head? hhead⟩

theorem declared?_of_declares (h : m.declares = true) :
    declared? ((m :: line) :: lines) = some m := by
  simp [declared?, h]

theorem declared?_of_silent (h : ∀ k ∈ line, k.declares = false) :
    declared? (line :: lines) = declared? lines := by
  have hnone : line.find? Mention.declares = none := by simpa using h
  rw [declared?, List.flatten_cons, List.find?_append, hnone]
  rfl

/-- A declaration on the first line comes before those behind it. -/
theorem declared?_of_mem (h : m ∈ line) (hm : m.declares = true) :
    ∃ k ∈ line, declared? (line :: lines) = some k := by
  obtain ⟨k, hk⟩ := Option.isSome_iff_exists.1 (List.find?_isSome.2 ⟨m, h, hm⟩)
  refine ⟨k, List.mem_of_find?_eq_some hk, ?_⟩
  rw [declared?, List.flatten_cons, List.find?_append, hk]
  rfl

theorem declares_of_declared? (h : declared? lines = some m) : m.declares = true :=
  List.find?_some h

theorem class?_of_declares (h : m.declares = true) : m.class?.isSome = true :=
  (Bool.and_eq_true_iff.1 h).2

theorem not_isMisread_of_declares (h : m.declares = true) :
    ¬IsMisread ((m :: line) :: lines) := by
  have hgiven := class?_of_declares h
  intro hmisread
  cases hmisread with
  | foreign _ other =>
    rw [Mention.declares, other] at h
    cases h
  | hidden empty _ _ =>
    rw [empty] at hgiven
    cases hgiven
  | later unread _ _ =>
    rw [unread m rfl] at hgiven
    cases hgiven

theorem isMisread_of_silent (hunread : ∀ m ∈ line.head?, m.class? = none)
    (hsilent : ∀ k ∈ line, k.declares = false) :
    IsMisread (line :: lines) ↔ IsMisread lines := by
  refine ⟨?_, .later hunread hsilent⟩
  intro h
  cases h with
  | foreign given _ =>
    rw [hunread _ rfl] at given
    cases given
  | hidden _ behind declared =>
    rw [hsilent _ (List.mem_cons_of_mem _ behind)] at declared
    cases declared
  | later _ _ rest => exact rest

/-- A declaration on a line that is not read is hidden. -/
theorem isMisread_of_unread (hunread : ∀ m ∈ line.head?, m.class? = none) (h : m ∈ line)
    (hm : m.declares = true) : IsMisread (line :: lines) := by
  have hgiven := class?_of_declares hm
  cases line with
  | nil => cases h
  | cons first rest =>
    have hempty := hunread first rfl
    rcases List.mem_cons.1 h with rfl | hbehind
    · rw [hempty] at hgiven
      cases hgiven
    · exact .hidden hempty hbehind hm

end Lines

/-- The class is read where it is declared, unless the text is misread. -/
theorem read?_eq_declared?_iff (number : Nat) (lines : List (List Char)) :
    read? (mentionsFrom number lines) = declared? (mentionsFrom number lines) ↔
      ¬IsMisread (mentionsFrom number lines) := by
  induction lines generalizing number with
  | nil => exact iff_of_true rfl nofun
  | cons first lines ih =>
    have hhere : ∀ m ∈ lineMentions number first, m.line = number :=
      fun m hm => (mem_lineMentions_iff.1 hm).1
    have hthere : ∀ m, read? (mentionsFrom (number + 1) lines) = some m → number < m.line :=
      fun m hm => lt_of_mem_mentionsFrom (mem_of_read? hm)
    rw [mentionsFrom]
    by_cases hunread : ∀ m ∈ (lineMentions number first).head?, m.class? = none
    · rw [read?_of_no_class hunread]
      by_cases hsilent : ∀ k ∈ lineMentions number first, k.declares = false
      · rw [declared?_of_silent hsilent, isMisread_of_silent hunread hsilent]
        exact ih (number + 1)
      · -- The declaration stands on this line, and what is read behind it.
        simp only [not_forall, Bool.not_eq_false] at hsilent
        obtain ⟨k, hk, hdeclares⟩ := hsilent
        have hdeclared : ∃ d ∈ lineMentions number first,
            declared? (lineMentions number first :: mentionsFrom (number + 1) lines) = some d :=
          declared?_of_mem hk hdeclares
        obtain ⟨d, hd, hsome⟩ := hdeclared
        refine iff_of_false ?_ (not_not.2 (isMisread_of_unread hunread hk hdeclares))
        intro hsame
        have hbehind := hthere d (hsame.trans hsome)
        rw [hhere d hd] at hbehind
        exact Nat.lt_irrefl _ hbehind
    · simp only [not_forall] at hunread
      obtain ⟨m, hm, hclass⟩ := hunread
      obtain ⟨line, hline⟩ := List.head?_eq_some_iff.1 hm
      have hgiven : m.class?.isSome = true := Option.isSome_iff_ne_none.2 hclass
      rw [hline, read?_of_class hgiven]
      cases hkeyword : m.isKeyword with
      | true =>
        have hdeclares : m.declares = true := by rw [Mention.declares, hkeyword, hgiven]; rfl
        exact iff_of_true (declared?_of_declares hdeclares).symm (not_isMisread_of_declares hdeclares)
      | false =>
        refine iff_of_false ?_ (not_not.2 (.foreign hgiven hkeyword))
        intro hsame
        have hdeclares := declares_of_declared? hsame.symm
        rw [Mention.declares, hkeyword] at hdeclares
        cases hdeclares

theorem findSome?_classOf? (number : Nat) (lines : List (List Char)) :
    lines.findSome? classOf? = (read? (mentionsFrom number lines)).bind Mention.class? := by
  rw [read?_bind_class?]
  induction lines generalizing number with
  | nil => rfl
  | cons line lines ih =>
    rw [mentionsFrom, List.findSome?_cons, List.findSome?_cons, classOf?_eq number, ih (number + 1)]

theorem jobClass_eq (jcl : String) : jobClass jcl = classAt (read? (mentions jcl)) := by
  rw [jobClass, findSome?_classOf? 0]
  rfl

theorem isAlphanum_classAt (m : Option Mention) : (classAt m).isAlphanum = true := by
  unfold classAt
  cases hclass : m.bind Mention.class? with
  | none => rfl
  | some c =>
    obtain ⟨k, _, hk⟩ := Option.bind_eq_some_iff.1 hclass
    exact (Option.filter_eq_some_iff.1 hk).2

end Host.Jcl

namespace Host

/-! ## The class that is shown -/

/-- The message that a job has started in a class. -/
def Job.startMessage (jobname : String) (jobClass : Char) : String :=
  "$HASP373 " ++ jobname ++ " STARTED - INIT 1 - CLASS " ++ String.singleton jobClass ++
    " - SYS " ++ systemName

/-- A line of the text ends in the message that the job has started in the
class. -/
def Job.NotesStart (jobname : String) (jobClass : Char) (text : String) : Prop :=
  ∃ line ∈ Text.lines text, ∃ front, line = front ++ startMessage jobname jobClass

/-- The job has the spool file `JESMSGLG`, in which its start is noted with the
class, and which can be read as long as no call deletes the job. -/
def Machine.ShowsClass (s : Machine) (id : String) (jobClass : Char) : Prop :=
  ∃ job ∈ s.jobs.jobs, job.jobid = id ∧ ∃ time step,
    ⟨2, "JESMSGLG", step, Job.messages time id job.jobname jobClass⟩ ∈ job.spool ∧
    Job.NotesStart job.jobname jobClass (Job.messages time id job.jobname jobClass) ∧
    ∀ later now, job.isDeletedIn later = false →
      (Machine.invoke now (.readSpoolFile id 2) (s.after later)).1 =
        .ok (.text (Job.messages time id job.jobname jobClass))

theorem Job.notesStart_messages (time id : String) {jobname : String} {jobClass : Char}
    (hname : '\n' ∉ jobname.toList) (hclass : jobClass ≠ '\n') :
    NotesStart jobname jobClass (messages time id jobname jobClass) := by
  have hfeed : '\n' ∉ (startMessage jobname jobClass).toList := by
    simp [startMessage, systemName, hname, hclass.symm]
  have hlast : (startMessage jobname jobClass).toList.getLast? = some '1' := by
    rw [startMessage, String.toList_append, List.getLast?_append]
    rfl
  have hmessages : (messages time id jobname jobClass).toList =
      (time ++ " " ++ id ++ "  ").toList ++ (startMessage jobname jobClass).toList ++
        '\n' :: (time ++ " " ++ id ++ "  $HASP395 " ++ jobname ++ " ENDED - RC=0000\n").toList := by
    simp [messages, startMessage]
  obtain ⟨line, hline, front, hends⟩ := Chars.exists_line_ending hfeed hlast (by decide) _ _
  rw [← hmessages] at hline
  refine ⟨String.ofList line, List.mem_map_of_mem hline, String.ofList front, ?_⟩
  rw [← hends, String.ofList_append, String.ofList_toList]

theorem JobQueue.readSpool_messages {q : JobQueue} (hq : q.IsNumbered) {time : String}
    {number : Nat} {name jcl owner : String}
    (hjob : Job.ofText time number name jcl owner ∈ q.jobs)
    (hnumber : (Job.ofText time number name jcl owner).HasNumber number) :
    q.readSpool (Job.idOf number) 2 =
      .ok (Job.messages time (Job.idOf number) name (Jcl.jobClass jcl)) := by
  have hanswers := Job.isNamedBy_iff.1 (Job.isNamedBy_jobid hnumber)
  have hfind : q.find (Job.idOf number) = .ok (Job.ofText time number name jcl owner) :=
    (find_eq_ok_iff hq).2 ⟨hjob, hanswers⟩
  rw [readSpool, hfind]
  rfl

namespace Machine

variable {s : Machine} {time id jcl : String} {call : Call}

/-- What is in the queue stays there until a call deletes it. -/
theorem mem_jobs_after (hq : s.jobs.IsNumbered) {job : Job} (hjob : job ∈ s.jobs.jobs)
    {later : List (String × Call)} (hlive : job.isDeletedIn later = false) :
    job ∈ (s.after later).jobs.jobs := by
  rw [after_jobs hq later]
  refine List.mem_append_left _ (List.mem_filter.2 ⟨hjob, ?_⟩)
  rw [hlive]
  rfl

theorem showsClass_of_submission (hq : s.jobs.IsNumbered) (hsubmits : call.submits? s = some jcl)
    (haccepted : (invoke time call s).1 = .ok (.jobId id)) :
    (invoke time call s).2.ShowsClass id (Jcl.jobClass jcl) := by
  have hnext := isNumbered_invoke hq time call
  cases hjob : call.job? time (s.jobs.lastNumber + 1) s with
  | none => exact absurd haccepted ((invoke_of_no_job hq hjob).2 id)
  | some job =>
    have hnumber := Call.hasNumber_of_job? hjob
    rw [invoke_of_job? hjob] at haccepted hnext ⊢
    cases haccepted
    rw [Call.job?, hsubmits] at hjob
    obtain ⟨name, hname, rfl⟩ := Option.map_eq_some_iff.1 hjob
    have hmem : Job.ofText time (s.jobs.lastNumber + 1) name jcl s.user ∈
        s.jobs.jobs ++ [Job.ofText time (s.jobs.lastNumber + 1) name jcl s.user] :=
      List.mem_append_right _ (List.mem_singleton_self _)
    have hfeed : '\n' ∉ name.toList := by
      intro hblank
      cases Jcl.not_blank_of_jobName? hname hblank
    have hclass : Jcl.jobClass jcl ≠ '\n' := by
      intro hsame
      have halphanum := Jcl.isAlphanum_classAt (Jcl.read? (Jcl.mentions jcl))
      rw [← Jcl.jobClass_eq, hsame] at halphanum
      cases halphanum
    refine ⟨_, hmem, rfl, time, _, List.mem_cons_self, Job.notesStart_messages time _ hfeed hclass,
      ?_⟩
    intro later now hlive
    have hlater := mem_jobs_after hnext hmem hlive
    have hread := JobQueue.readSpool_messages (isNumbered_after hnext later) hlater hnumber
    rw [invoke, answer_eq_ok_iff]
    exact ⟨_, hread, rfl⟩

/-- The start of a submitted job is noted with the class at the place where that
is read, which is the first place of its line. The place is that of the
declared class exactly if the text is not misread. -/
theorem class_is_read_at_first_mention (user : String) (history : List (String × Call))
    (hsubmits : call.submits? ((initial user).after history) = some jcl)
    (haccepted : (invoke time call ((initial user).after history)).1 = .ok (.jobId id)) :
    (invoke time call ((initial user).after history)).2.ShowsClass id
      (Jcl.classAt (Jcl.read? (Jcl.mentions jcl))) ∧
    (Jcl.read? (Jcl.mentions jcl) = Jcl.declared? (Jcl.mentions jcl) ↔
      ¬Jcl.IsMisread (Jcl.mentions jcl)) ∧
    (∀ m, m ∈ (Jcl.mentions jcl).flatten ↔ m.IsIn jcl) ∧
    (Jcl.mentions jcl).flatten.Pairwise Jcl.Mention.Precedes := by
  have hq : ((initial user).after history).jobs.IsNumbered :=
    isNumbered_after JobQueue.isNumbered_empty history
  refine ⟨?_, Jcl.read?_eq_declared?_iff 0 _, fun _ => Jcl.mem_mentions_iff,
    Jcl.pairwise_mentionsFrom 0 _⟩
  rw [← Jcl.jobClass_eq]
  exact showsClass_of_submission hq hsubmits haccepted

/-- A job of which only the class of the output is given. -/
def outputClassJob : String := "//J JOB MSGCLASS=X"

/-- A job with a class in a comment. -/
def commentedClassJob : String := "//* CLASS=Z\n//J JOB"

/-- The class of the output and that of a comment are taken for the class of a
job that declares none. -/
theorem undeclared_classes_are_shown :
    (Jcl.declared? (Jcl.mentions outputClassJob) = none ∧
      Jcl.IsMisread (Jcl.mentions outputClassJob) ∧
      (invoke "" (.submit outputClassJob) (initial "U")).2.ShowsClass "JOB00001" 'X') ∧
    Jcl.declared? (Jcl.mentions commentedClassJob) = none ∧
      Jcl.IsMisread (Jcl.mentions commentedClassJob) ∧
      (invoke "" (.submit commentedClassJob) (initial "U")).2.ShowsClass "JOB00001" 'Z' := by
  have hshown : ∀ jcl c, (invoke "" (.submit jcl) (initial "U")).1 = .ok (.jobId "JOB00001") →
      Jcl.read? (Jcl.mentions jcl) ≠ Jcl.declared? (Jcl.mentions jcl) →
      Jcl.classAt (Jcl.read? (Jcl.mentions jcl)) = c →
      Jcl.IsMisread (Jcl.mentions jcl) ∧
        (invoke "" (.submit jcl) (initial "U")).2.ShowsClass "JOB00001" c := by
    rintro jcl _ haccepted hread rfl
    have hsubmits : (Call.submit jcl).submits? ((initial "U").after []) = some jcl := rfl
    obtain ⟨hshows, hiff, _⟩ := class_is_read_at_first_mention "U" [] hsubmits haccepted
    exact ⟨not_not.1 (mt hiff.2 hread), hshows⟩
  exact ⟨⟨by decide, hshown outputClassJob 'X' rfl (by decide) (by decide)⟩,
    by decide, hshown commentedClassJob 'Z' rfl (by decide) (by decide)⟩

end Machine

end Host

end MvsGateway
