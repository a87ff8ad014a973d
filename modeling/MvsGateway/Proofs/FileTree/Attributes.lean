import MvsGateway.Proofs.FileTree.Frame
import MvsGateway.Proofs.FileTree.Reachable
import MvsGateway.Proofs.FileTree.Subtree

/-!
# Attributes of a subtree

A change of mode, owner or tag sets one field of the node at a path and, if it
is recursive, of every node below it. The three differ in the field that they
set and in the values that they refuse. What they share is the walk over the
nodes: it reaches the subtree by segments, which is the one that a scan of the
written paths finds, and walking it again changes nothing more.
-/

namespace MvsGateway

theorem Table.mapValues_mapValues {κ α : Type} [LT κ] [DecidableEq κ] [DecidableLT κ] [LE κ]
    [Std.LawfulOrderLT κ] [Std.IsLinearOrder κ] {f : κ → α → α} (h : ∀ k a, f k (f k a) = f k a)
    (t : Table κ α) : (t.mapValues f).mapValues f = t.mapValues f := by
  apply ext_get?
  intro k
  rw [get?_mapValues, get?_mapValues, Option.map_map]
  congr 1
  exact funext (h k)

theorem Table.keys_mapValues {κ α : Type} [LT κ] (f : κ → α → α) (t : Table κ α) :
    (t.mapValues f).keys = t.keys := by
  rw [keys, mapValues, List.map_map]
  rfl

namespace Host

/-- What a change at `p` reaches: the path itself and, if the change is
recursive, the paths that go on behind it. -/
def Path.Reaches (p : Path) (recursive : Bool) (q : Path) : Prop :=
  q = p ∨ recursive = true ∧ ∃ r, r ≠ [] ∧ q = p ++ r

namespace FileTree

variable {t : FileTree} {p q : Path} {path : String} {recursive : Bool} {change : Node → Node}

/-! ## The walk over the nodes -/

theorem reaches_iff :
    (q == p || (recursive && p.isBelow q)) = true ↔ p.Reaches recursive q := by
  rw [Path.Reaches, ← Path.isBelow_iff, Bool.or_eq_true, Bool.and_eq_true, beq_iff_eq]

theorem update_eq_ok_iff :
    (t.update path recursive change).1 = .ok () ↔
      ∃ node, t.nodes.get? (Path.ofText path) = some node := by
  rcases t.update_cases path recursive change with ⟨habsent, hr⟩ | ⟨node, hnode, hr⟩
  · rw [hr, habsent]
    simp
  · rw [hr, hnode]
    simp

theorem get?_update (h : (t.update path recursive change).1 = .ok ()) (q : Path) :
    ((Path.ofText path).Reaches recursive q →
      (t.update path recursive change).2.nodes.get? q = (t.nodes.get? q).map change) ∧
    (¬(Path.ofText path).Reaches recursive q →
      (t.update path recursive change).2.nodes.get? q = t.nodes.get? q) := by
  rcases t.update_cases path recursive change with ⟨_, hr⟩ | ⟨_, _, hr⟩
  · rw [hr] at h
    cases h
  · rw [hr, Table.get?_mapValues]
    constructor
    · intro hreached
      simp only [reaches_iff.2 hreached, if_true]
    · intro hreached
      rw [← reaches_iff] at hreached
      simp only [hreached, Bool.false_eq_true, if_false, Option.map_id']

theorem keys_update (t : FileTree) (path : String) (recursive : Bool) (change : Node → Node) :
    (t.update path recursive change).2.nodes.keys = t.nodes.keys := by
  rcases t.update_cases path recursive change with ⟨_, hr⟩ | ⟨_, _, hr⟩
  · rw [hr]
  · rw [hr, Table.keys_mapValues]

theorem update_update (change : Node → Node) (h : ∀ node, change (change node) = change node)
    (t : FileTree) (path : String) (recursive : Bool) :
    (t.update path recursive change).2.update path recursive change =
      t.update path recursive change := by
  rcases t.update_cases path recursive change with ⟨_, hr⟩ | ⟨node, hnode, hr⟩
  · rw [hr]
    exact hr
  · rw [hr]
    generalize hchanged : FileTree.mk (t.nodes.mapValues _) = u
    -- The node is still there, and so are those below it.
    rcases u.update_cases path recursive change with ⟨habsent, _⟩ | ⟨_, _, hr⟩
    · rw [← hchanged, Table.get?_mapValues, hnode] at habsent
      cases habsent
    · rw [hr, ← hchanged, Table.mapValues_mapValues]
      intro q old
      split
      · exact h old
      · rfl

/-! ## Changes of a subtree -/

/-- The operation succeeds exactly if there is a node at `p` and the new value
is allowed. Every node that it reaches is changed then, and nothing else: the
other nodes and all paths stay. Done twice it does the same as done once. -/
structure ChangesSubtree (t : FileTree) (p : Path) (recursive : Bool) (allowed : Prop)
    (change : Node → Node) (op : FileTree → Except Error Unit × FileTree) : Prop where
  succeeds_iff : (op t).1 = .ok () ↔ (∃ node, t.nodes.get? p = some node) ∧ allowed
  reached : (op t).1 = .ok () → ∀ q node, t.nodes.get? q = some node → p.Reaches recursive q →
    (op t).2.nodes.get? q = some (change node)
  others : (op t).1 = .ok () → ∀ q, ¬p.Reaches recursive q →
    (op t).2.nodes.get? q = t.nodes.get? q
  paths : (op t).2.nodes.keys = t.nodes.keys
  refused : (op t).1 ≠ .ok () → (op t).2 = t
  again : op (op t).2 = op t

/-- An operation that refuses some values, and for the others is the walk. -/
theorem changesSubtree_of_guard (t : FileTree) (path : String) (recursive : Bool)
    {allowed : Prop} {change : Node → Node} {op : FileTree → Except Error Unit × FileTree}
    (hagain : ∀ node, change (change node) = change node)
    (hallowed : allowed → op = fun u => u.update path recursive change)
    (hrefused : ¬allowed → ∃ e, op = fun u => (.error e, u)) :
    t.ChangesSubtree (Path.ofText path) recursive allowed change op := by
  by_cases h : allowed
  · obtain rfl := hallowed h
    constructor
    · rw [update_eq_ok_iff]
      exact (and_iff_left h).symm
    · intro hok q node hq hreached
      rw [(get?_update hok q).1 hreached, hq, Option.map_some]
    · intro hok q hreached
      exact (get?_update hok q).2 hreached
    · exact keys_update t path recursive change
    · intro hfailed
      rcases t.update_cases path recursive change with ⟨_, hr⟩ | ⟨_, _, hr⟩
      · simp only [hr]
      · simp only [hr] at hfailed
        exact absurd rfl hfailed
    · exact update_update change hagain t path recursive
  · obtain ⟨e, rfl⟩ := hrefused h
    constructor
    · exact ⟨nofun, fun hok => absurd hok.2 h⟩
    · exact nofun
    · exact nofun
    · rfl
    · exact fun _ => rfl
    · rfl

theorem changeMode_changesSubtree (t : FileTree) (path mode : String) (recursive : Bool) :
    t.ChangesSubtree (Path.ofText path) recursive (IsOctalMode mode)
      (fun node => { node with mode }) (·.changeMode path mode recursive) := by
  apply changesSubtree_of_guard
  · intro node
    rfl
  · intro hmode
    funext u
    rw [changeMode, checkMode_eq_ok_iff.2 hmode]
  · intro hmode
    rw [← checkMode_eq_ok_iff] at hmode
    cases hcheck : checkMode mode with
    | error e => exact ⟨e, by funext u; rw [changeMode, hcheck]⟩
    | ok => exact absurd hcheck hmode

theorem changeOwner_changesSubtree (t : FileTree) (path owner : String) (recursive : Bool) :
    t.ChangesSubtree (Path.ofText path) recursive (Text.isBlank owner = false)
      (fun node => { node with owner }) (·.changeOwner path owner recursive) := by
  apply changesSubtree_of_guard
  · intro node
    rfl
  · intro howner
    funext u
    rw [changeOwner, howner]
    rfl
  · intro howner
    rw [Bool.not_eq_false] at howner
    exact ⟨.invalid .blankOwner, by funext u; rw [changeOwner, howner]; rfl⟩

theorem changeTag_changesSubtree (t : FileTree) (path tag : String) (recursive : Bool) :
    t.ChangesSubtree (Path.ofText path) recursive True
      (fun node => if node.isDirectory then node else { node with tag := some tag })
      (·.changeTag path tag recursive) := by
  apply changesSubtree_of_guard
  · intro node
    by_cases hkind : node.isDirectory = true
    · simp only [hkind, if_true]
    · have htagged : ¬Node.isDirectory { node with tag := some tag } = true := hkind
      simp only [if_neg hkind, if_neg htagged]
  · intro _
    rfl
  · intro hno
    exact absurd trivial hno

theorem changeMode_changeMode (t : FileTree) (path mode : String) (recursive : Bool) :
    (t.changeMode path mode recursive).2.changeMode path mode recursive =
      t.changeMode path mode recursive :=
  (changeMode_changesSubtree t path mode recursive).again

theorem changeOwner_changeOwner (t : FileTree) (path owner : String) (recursive : Bool) :
    (t.changeOwner path owner recursive).2.changeOwner path owner recursive =
      t.changeOwner path owner recursive :=
  (changeOwner_changesSubtree t path owner recursive).again

theorem changeTag_changeTag (t : FileTree) (path tag : String) (recursive : Bool) :
    (t.changeTag path tag recursive).2.changeTag path tag recursive =
      t.changeTag path tag recursive :=
  (changeTag_changesSubtree t path tag recursive).again

/-! ## The subtree as a scan finds it -/

/-- The texts of the node at `p` and of those that a scan finds below it. -/
def targets (t : FileTree) (p : Path) (recursive : Bool) : List String :=
  p.text :: if recursive then t.textsBelow p else []

theorem WellFormed.mem_targets_iff (h : t.WellFormed) (hp : p.IsNormal) {node : Node}
    (hq : t.nodes.get? q = some node) :
    q.text ∈ t.targets p recursive ↔ p.Reaches recursive q := by
  have hself : q.text = p.text ↔ q = p :=
    ⟨Path.text_injective (h.isNormal hq) hp, congrArg Path.text⟩
  rw [targets, List.mem_cons, hself, Path.Reaches, ← Path.isBelow_iff]
  cases recursive with
  | true => simp [h.mem_textsBelow_iff hp hq]
  | false => simp

/-- Changes of mode, owner and tag reach the subtree at a path, which a scan of
the written paths finds. A mode is three octal digits, an owner is not blank,
and a directory gets no tag. -/
theorem attributes_change_in_subtree {user : String} (huser : Path.IsSegment user)
    (h : Reachable user t) (path : String) (recursive : Bool) :
    (∀ mode, t.ChangesSubtree (Path.ofText path) recursive (IsOctalMode mode)
      (fun node => { node with mode }) (·.changeMode path mode recursive)) ∧
    (∀ owner, t.ChangesSubtree (Path.ofText path) recursive (Text.isBlank owner = false)
      (fun node => { node with owner }) (·.changeOwner path owner recursive)) ∧
    (∀ tag, t.ChangesSubtree (Path.ofText path) recursive True
      (fun node => if node.isDirectory then node else { node with tag := some tag })
      (·.changeTag path tag recursive)) ∧
    ∀ q node, t.nodes.get? q = some node →
      (q.text ∈ t.targets (Path.ofText path) recursive ↔
        (Path.ofText path).Reaches recursive q) := by
  refine ⟨?_, ?_, ?_, ?_⟩
  · intro mode
    exact changeMode_changesSubtree t path mode recursive
  · intro owner
    exact changeOwner_changesSubtree t path owner recursive
  · intro tag
    exact changeTag_changesSubtree t path tag recursive
  · intro q node hq
    exact (h.wellFormed huser).mem_targets_iff (Path.isNormal_ofText path) hq

/-- The file tree with a directory and its neighbours. -/
def neighbours : FileTree := ((Machine.initial "U").after Machine.neighbours).files

/-- The file in the directory gets the mode, and a neighbour keeps its own. Of
the file and the directory the file alone gets a tag. A blank owner is
refused. -/
theorem attributes_pass_neighbours : Path.IsSegment "U" ∧ Reachable "U" neighbours ∧
    (neighbours.changeMode "/tmp/d" "700" true).2.nodes.get? ["tmp", "d", "f"] =
      some ⟨.file "", "700", "U", none⟩ ∧
    (neighbours.changeMode "/tmp/d" "700" true).2.nodes.get? ["tmp", "d0"] =
      some ⟨.file "", "600", "U", none⟩ ∧
    (neighbours.changeTag "/tmp/d" "UTF-8" true).2.nodes.get? ["tmp", "d", "f"] =
      some ⟨.file "", "644", "U", some "UTF-8"⟩ ∧
    (neighbours.changeTag "/tmp/d" "UTF-8" true).2.nodes.get? ["tmp", "d"] =
      some ⟨.directory, "755", "U", none⟩ ∧
    (neighbours.changeOwner "/tmp/d" " " true).1 ≠ .ok () := by
  have huser : Path.IsSegment "U" := by constructor <;> decide
  have hreachable : Reachable "U" neighbours := Machine.files_reachable "U" Machine.neighbours
  obtain ⟨hmode, howner, htag, _⟩ := attributes_change_in_subtree huser hreachable "/tmp/d" true
  have hfile : Path.Reaches ["tmp", "d"] true ["tmp", "d", "f"] :=
    .inr ⟨rfl, ["f"], by decide, rfl⟩
  have hneighbour : ¬Path.Reaches ["tmp", "d"] true ["tmp", "d0"] := by
    rw [← reaches_iff]
    decide
  have hmoded := (hmode "700").succeeds_iff.2 ⟨⟨_, rfl⟩, 7, 0, 0, by decide⟩
  have htagged := (htag "UTF-8").succeeds_iff.2 ⟨⟨_, rfl⟩, trivial⟩
  refine ⟨huser, hreachable, ?_, ?_, ?_, ?_, ?_⟩
  · exact (hmode "700").reached hmoded _ _ rfl hfile
  · exact (hmode "700").others hmoded _ hneighbour
  · exact (htag "UTF-8").reached htagged _ _ rfl hfile
  · exact (htag "UTF-8").reached htagged _ _ rfl (.inl rfl)
  · rw [ne_eq, (howner " ").succeeds_iff]
    rintro ⟨_, hblank⟩
    cases hblank

end FileTree

end Host

end MvsGateway
