import MvsGateway.Proofs.FileTree.WellFormed

/-!
# Deleting a subtree

A delete takes away a node and all that is below it, where below is a matter
of segments. A table of written paths finds the same nodes by a scan: in the
order of the texts, those that start with the path and a slash stand together,
so that the scan may begin at that text and end at the first that does not
start with it.
-/

namespace MvsGateway

/-! ## Scans of ordered texts -/

theorem takeWhile_eq_filter {α : Type} {P : α → Bool} {l : List α}
    (h : l.Pairwise fun a b => P b = true → P a = true) : l.takeWhile P = l.filter P := by
  induction l with
  | nil => rfl
  | cons a l ih =>
    obtain ⟨ha, hl⟩ := List.pairwise_cons.1 h
    cases hP : P a with
    | true => rw [List.takeWhile_cons_of_pos hP, List.filter_cons_of_pos hP, ih hl]
    | false =>
      have hnone : l.filter P = [] := by
        rw [List.filter_eq_nil_iff]
        intro b hb hPb
        rw [ha b hb hPb] at hP
        cases hP
      rw [List.takeWhile_cons_of_neg (by simp [hP]), List.filter_cons_of_neg (by simp [hP]), hnone]

/-- What stands between a text and its continuation continues it, too. -/
theorem Chars.prefix_of_between {lead s r : List Char} (hs : ¬s < lead) (hr : ¬r < s)
    (h : lead <+: r) : lead <+: s := by
  induction lead generalizing s r with
  | nil => exact List.nil_prefix
  | cons c lead ih =>
    obtain ⟨rest, rfl⟩ := h
    cases s with
    | nil => exact absurd (List.nil_lt_cons c lead) hs
    | cons d s =>
      rw [List.cons_append, List.cons_lt_cons_iff, not_or, not_and] at hr
      rw [List.cons_lt_cons_iff, not_or, not_and] at hs
      have hsame : c = d := Std.le_antisymm (Std.not_lt.1 hs.1) (Std.not_lt.1 hr.1)
      subst hsame
      exact List.cons_prefix_cons.2 ⟨rfl, ih (hs.2 rfl) (hr.2 rfl) (List.prefix_append lead rest)⟩

namespace Text

theorem le_iff {s r : String} : s ≤ r ↔ ¬r.toList < s.toList := by
  rw [← Std.not_lt, String.lt_iff]

theorem le_of_startsWith {lead s : String} (h : startsWith lead s = true) : lead ≤ s :=
  le_iff.2 (List.not_lt.2 (List.isPrefixOf_iff_prefix.1 h).le)

theorem startsWith_of_between {lead s r : String} (hs : lead ≤ s) (hr : s ≤ r)
    (h : startsWith lead r = true) : startsWith lead s = true :=
  List.isPrefixOf_iff_prefix.2
    (Chars.prefix_of_between (le_iff.1 hs) (le_iff.1 hr) (List.isPrefixOf_iff_prefix.1 h))

/-- The texts from `lead` on, as long as they start with it. -/
def scan (lead : String) (texts : List String) : List String :=
  (texts.dropWhile (· < lead)).takeWhile (startsWith lead)

/-- In an ordered list a scan misses nothing. -/
theorem scan_eq_filter {texts : List String} (h : texts.Pairwise (· < ·)) (lead : String) :
    scan lead texts = texts.filter (startsWith lead) := by
  induction texts with
  | nil => rfl
  | cons s texts ih =>
    obtain ⟨hs, htexts⟩ := List.pairwise_cons.1 h
    by_cases hlt : s < lead
    · have hno : ¬startsWith lead s = true := fun hstarts =>
        absurd hlt (Std.not_lt.2 (le_of_startsWith hstarts))
      rw [List.filter_cons_of_neg hno, ← ih htexts, scan,
        List.dropWhile_cons_of_pos (by exact decide_eq_true hlt)]
      rfl
    · -- From here on every text is behind `lead`, so that those that start with it come first.
      have hfrom : ∀ r ∈ s :: texts, lead ≤ r := by
        intro r hr
        rcases List.mem_cons.1 hr with rfl | hr
        · exact Std.not_lt.1 hlt
        · exact Std.le_trans (Std.not_lt.1 hlt) (Std.le_of_lt (hs r hr))
      rw [scan, List.dropWhile_cons_of_neg (by exact fun h => hlt (of_decide_eq_true h))]
      apply takeWhile_eq_filter
      refine h.imp_of_mem ?_
      intro a b ha _ hlt hstarts
      exact startsWith_of_between (hfrom a ha) (Std.le_of_lt hlt) hstarts

end Text

namespace Host

theorem Path.prefix_iff {p q : Path} : p <+: q ↔ q = p ∨ p.isBelow q = true := by
  rw [Path.isBelow_iff]
  constructor
  · rintro ⟨r, rfl⟩
    by_cases hr : r = []
    · exact .inl (by rw [hr, List.append_nil])
    · exact .inr ⟨r, hr, rfl⟩
  · rintro (rfl | ⟨r, _, rfl⟩)
    · exact List.prefix_refl q
    · exact List.prefix_append p r

namespace FileTree

variable {t : FileTree} {p : Path}

/-! ## The nodes below a path -/

/-- The texts of all paths in their order. -/
def texts (t : FileTree) : List String := (t.nodes.keys.map Path.text).mergeSort

/-- The texts of the paths below a path. -/
def textsBelow (t : FileTree) (p : Path) : List String :=
  (Text.scan p.childPrefix t.texts).filter (· ≠ p.text)

theorem mem_texts_iff {s : String} :
    s ∈ t.texts ↔ ∃ q node, t.nodes.get? q = some node ∧ q.text = s := by
  rw [texts, List.mem_mergeSort, List.mem_map]
  constructor
  · rintro ⟨q, hq, rfl⟩
    obtain ⟨node, hnode⟩ := Table.mem_keys_iff.1 hq
    exact ⟨q, node, hnode, rfl⟩
  · rintro ⟨q, node, hnode, rfl⟩
    exact ⟨q, Table.mem_keys_iff.2 ⟨node, hnode⟩, rfl⟩

theorem WellFormed.texts_ascending (h : t.WellFormed) : t.texts.Pairwise (· < ·) := by
  have hordered : t.texts.Pairwise (· ≤ ·) := by
    refine (List.pairwise_mergeSort ?_ ?_ _).imp (by simp)
    · intro a b c hab hbc
      exact decide_eq_true (Std.le_trans (of_decide_eq_true hab) (of_decide_eq_true hbc))
    · intro a b
      simpa using Std.le_total
  -- Two paths of the tree are in normal form, so that they differ in their texts.
  have hdistinct : t.texts.Pairwise (· ≠ ·) := by
    rw [texts, ← List.Nodup, (List.mergeSort_perm _ _).nodup_iff, List.Nodup, List.pairwise_map]
    refine t.nodes.keys_ascending.imp_of_mem ?_
    intro q r hq hr hlt hsame
    obtain ⟨_, hnode⟩ := Table.mem_keys_iff.1 hq
    obtain ⟨_, hother⟩ := Table.mem_keys_iff.1 hr
    rw [Path.text_injective (h.isNormal hnode) (h.isNormal hother) hsame] at hlt
    exact Std.lt_irrefl hlt
  exact (hordered.and hdistinct).imp fun ⟨hle, hne⟩ => Std.lt_of_le_of_ne hle hne

/-- The scan finds the nodes below a path, all of them and nothing else. -/
theorem WellFormed.mem_textsBelow_iff (h : t.WellFormed) (hp : p.IsNormal) {q : Path} {node : Node}
    (hq : t.nodes.get? q = some node) : q.text ∈ t.textsBelow p ↔ p.isBelow q = true := by
  rw [textsBelow, Text.scan_eq_filter h.texts_ascending, List.mem_filter, List.mem_filter,
    Path.isBelow_iff_startsWith hp (h.isNormal hq)]
  have hthere : q.text ∈ t.texts := mem_texts_iff.2 ⟨q, node, hq, rfl⟩
  simp [hthere]

theorem hasBelow_eq_false_iff :
    t.hasBelow p = false ↔ ∀ q node, t.nodes.get? q = some node → p <+: q → q = p := by
  rw [hasBelow, List.any_eq_false]
  constructor
  · intro hnone q node hq hprefix
    rcases Path.prefix_iff.1 hprefix with hself | hbelow
    · exact hself
    · exact absurd hbelow (hnone q (Table.mem_keys_iff.2 ⟨node, hq⟩))
  · intro hself q hkey hbelow
    obtain ⟨node, hq⟩ := Table.mem_keys_iff.1 hkey
    rw [hself q node hq (Path.prefix_iff.2 (.inr hbelow))] at hbelow
    obtain ⟨r, hr, happend⟩ := Path.isBelow_iff.1 hbelow
    exact hr (List.self_eq_append_right.1 happend)

/-! ## Deletes -/

variable {path : String} {recursive : Bool}

theorem delete_eq_ok_iff : (t.delete path recursive).1 = .ok () ↔
    Path.ofText path ≠ .root ∧ (∃ node, t.nodes.get? (Path.ofText path) = some node) ∧
      (recursive = true ∨ t.hasBelow (Path.ofText path) = false) := by
  constructor
  · intro h
    rcases t.delete_cases path recursive with ⟨_, hr⟩ | ⟨node, hroot, hnode, hallowed, _⟩
    · rw [hr] at h
      cases h
    · exact ⟨hroot, ⟨node, hnode⟩, hallowed.symm⟩
  · rintro ⟨hroot, ⟨node, hnode⟩, hallowed⟩
    have hempty : (Path.ofText path).isEmpty = false := by
      rw [List.isEmpty_eq_false_iff]
      exact hroot
    have hbelow : (t.hasBelow (Path.ofText path) && !recursive) = false := by
      rcases hallowed with rfl | hbelow
      · exact Bool.and_false _
      · rw [hbelow, Bool.false_and]
    simp only [delete, hempty, find_of_node hnode, hbelow, Bool.false_eq_true, if_false]

theorem delete_of_ok (h : (t.delete path recursive).1 = .ok ()) :
    (t.delete path recursive).2 = t.without (Path.ofText path) := by
  rcases t.delete_cases path recursive with ⟨_, hr⟩ | ⟨_, _, _, _, hr⟩
  · rw [hr] at h
    cases h
  · rw [hr]
    rfl

theorem delete_of_refused (h : (t.delete path recursive).1 ≠ .ok ()) :
    (t.delete path recursive).2 = t := by
  rcases t.delete_cases path recursive with ⟨_, hr⟩ | ⟨_, _, _, _, hr⟩
  · rw [hr]
  · rw [hr] at h
    exact absurd rfl h

theorem get?_without (t : FileTree) (p q : Path) :
    (t.without p).nodes.get? q = if p <+: q then none else t.nodes.get? q := by
  apply Option.ext
  intro node
  rw [get?_without_eq_some_iff]
  by_cases hprefix : p <+: q
  · rw [if_pos hprefix]
    refine ⟨fun h => ?_, nofun⟩
    rcases Path.prefix_iff.1 hprefix with hself | hbelow
    · exact absurd hself h.1.1
    · rw [h.1.2] at hbelow
      cases hbelow
  · rw [if_neg hprefix]
    refine ⟨And.right, fun hq => ⟨⟨?_, ?_⟩, hq⟩⟩
    · rintro rfl
      exact hprefix (List.prefix_refl q)
    · rw [Bool.eq_false_iff]
      intro hbelow
      exact hprefix (Path.prefix_iff.2 (.inr hbelow))

/-- A node belongs to the subtree at `p` if its text is that of `p`, or goes on
behind it with a slash. A scan of the ordered texts finds these. -/
structure ShowsSubtree (t : FileTree) (p : Path) : Prop where
  byText : p.text ≠ "/" → ∀ q node, t.nodes.get? q = some node →
    (p <+: q ↔ q.text = p.text ∨ Text.startsWith (p.text ++ "/") q.text = true)
  byScan : ∀ q node, t.nodes.get? q = some node →
    (p <+: q ↔ q.text = p.text ∨ q.text ∈ t.textsBelow p)

theorem WellFormed.showsSubtree (h : t.WellFormed) (hp : p.IsNormal) : t.ShowsSubtree p := by
  have hself : ∀ q node, t.nodes.get? q = some node → (q = p ↔ q.text = p.text) := by
    intro q node hq
    exact ⟨congrArg Path.text, Path.text_injective (h.isNormal hq) hp⟩
  constructor
  · intro hroot q node hq
    have hprefix : p.childPrefix = p.text ++ "/" := by
      apply Path.childPrefix_of_ne
      rintro rfl
      exact hroot rfl
    rw [Path.prefix_iff, hself q node hq, Path.isBelow_iff_startsWith hp (h.isNormal hq), hprefix]
    by_cases hsame : q.text = p.text
    · simp [hsame]
    · simp [hsame]
  · intro q node hq
    rw [Path.prefix_iff, hself q node hq, h.mem_textsBelow_iff hp hq]

end FileTree

namespace Machine

/-- A delete of the subtree at `p`: when it succeeds, and what is left. -/
structure DeletesSubtree (s : Machine) (p : Path) (recursive : Bool) (r : Answer × Machine) :
    Prop where
  succeeds_iff : (∃ o, r.1 = .ok o) ↔
    p.text ≠ "/" ∧ (∃ node, s.files.nodes.get? p = some node) ∧
      (recursive = true ∨ ∀ q node, s.files.nodes.get? q = some node → p <+: q → q = p)
  left : (∃ o, r.1 = .ok o) →
    ∀ q, r.2.files.nodes.get? q = if p <+: q then none else s.files.nodes.get? q
  rest : r.2 = { s with files := r.2.files }
  refused : ¬(∃ o, r.1 = .ok o) → r.2 = s

theorem text_ne_root_iff {p : Path} (hp : p.IsNormal) : p.text ≠ "/" ↔ p ≠ .root := by
  have hroot : Path.IsNormal .root := nofun
  constructor
  · rintro hne rfl
    exact hne rfl
  · intro hne hsame
    exact hne (Path.text_injective hp hroot hsame)

theorem deletesSubtree (time path : String) (recursive : Bool) (s : Machine) :
    s.DeletesSubtree (Path.ofText path) recursive
      (invoke time (.deletePath path recursive) s) := by
  have hok : (∃ o, (invoke time (.deletePath path recursive) s).1 = .ok o) ↔
      (s.files.delete path recursive).1 = .ok () := by
    simp only [invoke, onFiles_fst, answer_eq_ok_iff]
    constructor
    · rintro ⟨_, _, hdelete, _⟩
      exact hdelete
    · intro hdelete
      exact ⟨.done, (), hdelete, rfl⟩
  constructor
  · rw [hok, FileTree.delete_eq_ok_iff, FileTree.hasBelow_eq_false_iff,
      text_ne_root_iff (Path.isNormal_ofText path)]
  · intro h q
    rw [invoke, onFiles_files, FileTree.delete_of_ok (hok.1 h), FileTree.get?_without]
  · rfl
  · intro h
    rw [hok] at h
    rw [invoke, onFiles_snd, FileTree.delete_of_refused h]

/-- After every run a delete takes away a node and the nodes below it, and
leaves the others as they are. -/
theorem delete_removes_subtree {user : String} (huser : Path.IsSegment user)
    (history : List (String × Call)) (time path : String) (recursive : Bool) :
    ((initial user).after history).DeletesSubtree (Path.ofText path) recursive
      (invoke time (.deletePath path recursive) ((initial user).after history)) ∧
    ((initial user).after history).files.ShowsSubtree (Path.ofText path) := by
  have hfirst : (initial user).files.WellFormed :=
    FileTree.wellFormed_initial (Path.isSegment_upper huser)
  have hafter := after_keeps_files FileTree.wellFormed_kept hfirst history
  exact ⟨deletesSubtree time path recursive _, hafter.showsSubtree (Path.isNormal_ofText path)⟩

/-- A directory with a file in it, and neighbours whose names continue its name
with characters on both sides of the slash. -/
def neighbours : List (String × Call) :=
  [("", .createDirectory "/tmp/d" "755"), ("", .createFile "/tmp/d/f" "644"),
    ("", .createFile "/tmp/d.x" "644"), ("", .createFile "/tmp/d0" "600")]

theorem delete_spares_neighbours : Path.IsSegment "IBMUSER" ∧
    ¬(∃ o, (invoke "" (.deletePath "/tmp/d" false)
      ((initial "IBMUSER").after neighbours)).1 = .ok o) ∧
    (∃ o, (invoke "" (.deletePath "/tmp/d" true)
      ((initial "IBMUSER").after neighbours)).1 = .ok o) ∧
    ∀ q, (invoke "" (.deletePath "/tmp/d" true)
        ((initial "IBMUSER").after neighbours)).2.files.nodes.get? q =
      if ["tmp", "d"] <+: q then none
      else ((initial "IBMUSER").after neighbours).files.nodes.get? q := by
  have huser : Path.IsSegment "IBMUSER" := by constructor <;> decide
  obtain ⟨hsingle, _⟩ := delete_removes_subtree huser neighbours "" "/tmp/d" false
  obtain ⟨hall, _⟩ := delete_removes_subtree huser neighbours "" "/tmp/d" true
  have hallowed := hall.succeeds_iff.2 ⟨by decide, ⟨_, rfl⟩, .inl rfl⟩
  refine ⟨huser, ?_, hallowed, hall.left hallowed⟩
  rw [hsingle.succeeds_iff]
  rintro ⟨_, _, hflag | hnone⟩
  · cases hflag
  · exact absurd (hnone ["tmp", "d", "f"] _ rfl ⟨["f"], rfl⟩) (by decide)

end Machine

end Host

end MvsGateway
