import MvsGateway.Proofs.FileTree.Outcome
import MvsGateway.Proofs.Path
import MvsGateway.Proofs.Run

/-!
# Well-formed file trees

The tree is kept in a flat table of paths, so that nothing in its type says
that it is a tree. Every change keeps the table closed under parents, though,
and with it everything that makes it a tree: above each node there are
directories up to the root, and below a file there is nothing.
-/

namespace MvsGateway.Host

/-- Three octal digits are the mode, and a directory has no tag. -/
structure Node.IsSound (n : Node) : Prop where
  mode : FileTree.checkMode n.mode = .ok ()
  tag : n.isDirectory = true → n.tag = none

namespace FileTree

def HasDirectory (t : FileTree) (p : Path) : Prop :=
  ∃ node, t.nodes.get? p = some node ∧ node.isDirectory = true

structure WellFormed (t : FileTree) : Prop where
  root : t.HasDirectory .root
  normal : ∀ p node, t.nodes.get? p = some node → Path.ofText p.text = p
  parent : ∀ p node, t.nodes.get? p = some node → ∀ q, p.parent? = some q → t.HasDirectory q
  sound : ∀ p node, t.nodes.get? p = some node → node.IsSound

variable {t u : FileTree} {p : Path} {node : Node}

theorem get?_put (t : FileTree) (p q : Path) (node : Node) :
    (t.put p node).nodes.get? q = if q = p then some node else t.nodes.get? q :=
  Table.get?_insert t.nodes p q node

/-! ## New nodes -/

theorem hasDirectory_put (habsent : t.nodes.get? p = none) {q : Path} (h : t.HasDirectory q) :
    (t.put p node).HasDirectory q := by
  obtain ⟨directory, hq, hkind⟩ := h
  have hne : q ≠ p := by
    rintro rfl
    rw [habsent] at hq
    cases hq
  refine ⟨directory, ?_, hkind⟩
  rw [get?_put, if_neg hne]
  exact hq

/-- A sound node may join wherever there is room for it. -/
theorem wellFormed_put (h : t.WellFormed) (hroom : t.HasRoom p) (hp : p.IsNormal)
    (hnode : node.IsSound) : (t.put p node).WellFormed := by
  obtain ⟨habsent, hparent⟩ := hroom
  constructor
  case root => exact hasDirectory_put habsent h.root
  case normal =>
    intro q other hq
    rcases Table.of_get?_insert hq with ⟨rfl, _⟩ | ⟨_, hold⟩
    · exact Path.ofText_text hp
    · exact h.normal q other hold
  case parent =>
    -- The new node has its parent in the room; those that were there keep theirs.
    intro q other hq r hr
    apply hasDirectory_put habsent
    rcases Table.of_get?_insert hq with ⟨rfl, _⟩ | ⟨_, hold⟩
    · rw [hr] at hparent
      exact hparent
    · exact h.parent q other hold r hr
  case sound =>
    intro q other hq
    rcases Table.of_get?_insert hq with ⟨_, rfl⟩ | ⟨_, hold⟩
    · exact hnode
    · exact h.sound q other hold

theorem isSound_new {mode : String} (hmode : checkMode mode = .ok ()) (kind : NodeKind)
    (owner : String) : Node.IsSound ⟨kind, mode, owner, none⟩ :=
  ⟨hmode, fun _ => rfl⟩

theorem wellFormed_add (h : t.WellFormed) (path : String) (kind : NodeKind)
    (mode owner : String) : (t.add path kind mode owner).2.WellFormed := by
  rcases t.add_cases path kind mode owner with ⟨_, hr, _⟩ | ⟨hmode, hroom, hr⟩
  · rw [hr]
    exact h
  · rw [hr]
    exact wellFormed_put h hroom (Path.isNormal_ofText path) (isSound_new hmode kind owner)

/-! ## Changed nodes -/

/-- What nodes hold apart from their kind does not matter for the shape of the
tree. -/
theorem wellFormed_of_kinds (h : t.WellFormed)
    (hkinds : ∀ p, (u.nodes.get? p).map Node.isDirectory = (t.nodes.get? p).map Node.isDirectory)
    (hsound : ∀ p node, u.nodes.get? p = some node → node.IsSound) : u.WellFormed := by
  -- Both trees have nodes at the same paths, and directories at the same paths.
  have hold : ∀ p node, u.nodes.get? p = some node → ∃ old, t.nodes.get? p = some old := by
    intro p node hp
    have hkind := hkinds p
    rw [hp] at hkind
    obtain ⟨old, hold, _⟩ := Option.map_eq_some_iff.1 hkind.symm
    exact ⟨old, hold⟩
  have hdirectory : ∀ p, t.HasDirectory p → u.HasDirectory p := by
    rintro p ⟨old, hp, hkind⟩
    have hsame := hkinds p
    rw [hp, Option.map_some, hkind] at hsame
    exact Option.map_eq_some_iff.1 hsame
  constructor
  case root => exact hdirectory .root h.root
  case normal =>
    intro p node hp
    obtain ⟨old, hpt⟩ := hold p node hp
    exact h.normal p old hpt
  case parent =>
    intro p node hp q hq
    obtain ⟨old, hpt⟩ := hold p node hp
    exact hdirectory q (h.parent p old hpt q hq)
  case sound => exact hsound

theorem wellFormed_putContent (h : t.WellFormed) {held : String} (hheld : t.content? p = some held)
    (content : String) : (t.putContent p content).WellFormed := by
  obtain ⟨file, hfile, hkind⟩ := content?_eq_some_iff.1 hheld
  simp only [putContent, hfile]
  apply wellFormed_of_kinds h
  · intro q
    rw [get?_put]
    by_cases hsame : q = p
    · rw [if_pos hsame, hsame, hfile]
      simp [Node.isDirectory, hkind]
    · rw [if_neg hsame]
  · intro q other hq
    rcases Table.of_get?_insert hq with ⟨_, rfl⟩ | ⟨_, hold⟩
    · exact ⟨(h.sound p file hfile).mode, fun hdirectory => absurd hdirectory Bool.false_ne_true⟩
    · exact h.sound q other hold

theorem wellFormed_update (h : t.WellFormed) (path : String) (recursive : Bool)
    {change : Node → Node} (hkind : ∀ node, (change node).isDirectory = node.isDirectory)
    (hsound : ∀ node, node.IsSound → (change node).IsSound) :
    (t.update path recursive change).2.WellFormed := by
  rcases t.update_cases path recursive change with ⟨_, hr⟩ | ⟨_, _, hr⟩
  · rw [hr]
    exact h
  · rw [hr]
    apply wellFormed_of_kinds h
    · intro q
      rw [Table.get?_mapValues, Option.map_map]
      congr 1
      funext node
      rw [Function.comp_apply]
      split
      · exact hkind node
      · rfl
    · intro q other hq
      rw [Table.get?_mapValues] at hq
      obtain ⟨old, hold, rfl⟩ := Option.map_eq_some_iff.1 hq
      split
      · exact hsound old (h.sound q old hold)
      · exact h.sound q old hold

/-! ## Deleted nodes -/

/-- The tree without a node and what lies below it. -/
def without (t : FileTree) (p : Path) : FileTree :=
  ⟨t.nodes.filter fun q _ => !(q == p || p.isBelow q)⟩

theorem get?_without_eq_some_iff {q : Path} : (t.without p).nodes.get? q = some node ↔
    (q ≠ p ∧ p.isBelow q = false) ∧ t.nodes.get? q = some node := by
  have hget := Table.get?_filter (fun q => !(q == p || p.isBelow q)) t.nodes q
  show (t.nodes.filter fun q _ => !(q == p || p.isBelow q)).get? q = some node ↔ _
  rw [hget]
  by_cases hkeeps : q ≠ p ∧ p.isBelow q = false
  · rw [if_pos (by simpa using hkeeps)]
    exact ⟨fun h => ⟨hkeeps, h⟩, And.right⟩
  · rw [if_neg (by simpa using hkeeps)]
    exact ⟨nofun, fun h => absurd h.1 hkeeps⟩

theorem hasDirectory_without {q : Path} (hne : q ≠ p) (hbelow : p.isBelow q = false)
    (h : t.HasDirectory q) : (t.without p).HasDirectory q := by
  obtain ⟨node, hq, hkind⟩ := h
  exact ⟨node, get?_without_eq_some_iff.2 ⟨⟨hne, hbelow⟩, hq⟩, hkind⟩

/-- What goes with a node is closed under children, so that no node that stays
loses its parent. -/
theorem wellFormed_without (h : t.WellFormed) (hp : p ≠ .root) : (t.without p).WellFormed := by
  constructor
  case root =>
    refine hasDirectory_without (Ne.symm hp) ?_ h.root
    rw [Bool.eq_false_iff]
    intro hbelow
    obtain ⟨r, hr, happend⟩ := Path.isBelow_iff.1 hbelow
    exact hr (List.append_eq_nil_iff.1 happend.symm).2
  case normal =>
    intro q node hq
    exact h.normal q node (get?_without_eq_some_iff.1 hq).2
  case parent =>
    intro q node hq r hparent
    -- Were the parent gone or below what is gone, so would be the node.
    obtain ⟨⟨_, hstays⟩, hqt⟩ := get?_without_eq_some_iff.1 hq
    have hbelow := Path.isBelow_of_parent? hparent
    refine hasDirectory_without ?_ ?_ (h.parent q node hqt r hparent)
    · rintro rfl
      rw [hstays] at hbelow
      cases hbelow
    · rw [Bool.eq_false_iff]
      intro hr
      rw [Path.isBelow_trans hr hbelow] at hstays
      cases hstays
  case sound =>
    intro q node hq
    exact h.sound q node (get?_without_eq_some_iff.1 hq).2

theorem wellFormed_delete (h : t.WellFormed) (path : String) (recursive : Bool) :
    (t.delete path recursive).2.WellFormed := by
  rcases t.delete_cases path recursive with ⟨_, hr⟩ | ⟨_, hne, _, _, hr⟩
  · rw [hr]
    exact h
  · rw [hr]
    exact wellFormed_without h hne

/-! ## Every change -/

theorem wellFormed_kept : Kept WellFormed where
  write t path data etag owner h := by
    rcases t.write_cases path data etag owner with
      ⟨_, hr, _⟩ | ⟨hroom, _, _, hr⟩ | ⟨hroom, _, hr⟩ | ⟨held, hheld, _, hr⟩
    · rw [hr]
      exact h
    · rw [hr]
      exact wellFormed_put h hroom (Path.isNormal_ofText path)
        (isSound_new checkMode_writtenMode (.file "") owner)
    · rw [hr]
      exact wellFormed_put h hroom (Path.isNormal_ofText path)
        (isSound_new checkMode_writtenMode (.file data) owner)
    · rw [hr]
      exact wellFormed_putContent h hheld data
  createFile t path mode owner h := wellFormed_add h path (.file "") mode owner
  createDirectory t path mode owner h := wellFormed_add h path .directory mode owner
  delete t path recursive h := wellFormed_delete h path recursive
  changeMode t path mode recursive h := by
    unfold changeMode
    cases hmode : checkMode mode with
    | error e => exact h
    | ok =>
      have hsound : ∀ node : Node, node.IsSound → Node.IsSound { node with mode } :=
        fun node hnode => ⟨hmode, hnode.tag⟩
      exact wellFormed_update h path recursive (fun _ => rfl) hsound
  changeOwner t path owner recursive h := by
    unfold changeOwner
    split
    · exact h
    · have hsound : ∀ node : Node, node.IsSound → Node.IsSound { node with owner } :=
        fun node hnode => ⟨hnode.mode, hnode.tag⟩
      exact wellFormed_update h path recursive (fun _ => rfl) hsound
  changeTag t path tag recursive h := by
    unfold changeTag
    apply wellFormed_update h path recursive
    · intro node
      split
      · rfl
      · rfl
    · intro node hnode
      split
      · exact hnode
      · rename_i hfile
        exact ⟨hnode.mode, fun hdirectory => absurd hdirectory hfile⟩

/-! ## The first tree -/

theorem wellFormed_root (owner : String) :
    (put ⟨Table.empty⟩ .root (.newDirectory "755" owner)).WellFormed := by
  have honly : ∀ p node, (put ⟨Table.empty⟩ .root (.newDirectory "755" owner)).nodes.get? p =
      some node → p = .root ∧ node = .newDirectory "755" owner := by
    intro p node hp
    rw [get?_put, Table.get?_empty] at hp
    by_cases hroot : p = .root
    · rw [if_pos hroot] at hp
      exact ⟨hroot, (Option.some.inj hp).symm⟩
    · rw [if_neg hroot] at hp
      cases hp
  constructor
  · exact ⟨.newDirectory "755" owner, by rw [get?_put, if_pos rfl], rfl⟩
  · intro p node hp
    rw [(honly p node hp).1]
    rfl
  · intro p node hp q hq
    rw [(honly p node hp).1] at hq
    cases hq
  · intro p node hp
    rw [(honly p node hp).2]
    exact isSound_new rfl .directory owner

theorem wellFormed_putDirectory (h : t.WellFormed) {parent : Path} {s mode : String}
    (hparent : t.HasDirectory parent) (hs : Path.IsSegment s)
    (habsent : t.nodes.get? (parent ++ [s]) = none) (hmode : checkMode mode = .ok ())
    (owner : String) : (t.put (parent ++ [s]) (.newDirectory mode owner)).WellFormed := by
  have hup : Path.parent? (parent ++ [s]) = some parent := Path.parent?_eq_some_iff.2 ⟨s, rfl⟩
  have hroom : t.HasRoom (parent ++ [s]) := by
    refine ⟨habsent, ?_⟩
    rw [hup]
    exact hparent
  have hnormal : Path.IsNormal (parent ++ [s]) := by
    obtain ⟨node, hnode, _⟩ := hparent
    have hfront := Path.isNormal_ofText parent.text
    rw [h.normal parent node hnode] at hfront
    intro segment hsegment
    rcases List.mem_append.1 hsegment with hmem | hmem
    · exact hfront segment hmem
    · rw [List.mem_singleton.1 hmem]
      exact hs
  exact wellFormed_put h hroom hnormal (isSound_new hmode .directory owner)

theorem hasDirectory_put_self (hkind : node.isDirectory = true) : (t.put p node).HasDirectory p :=
  ⟨node, by rw [get?_put, if_pos rfl], hkind⟩

/-- The home directory has a place of its own, whatever the user is called. -/
theorem wellFormed_initial {user : String} (huser : Path.IsSegment user) :
    (initial user).WellFormed := by
  have hlower := Path.isSegment_lower huser
  have hhome : Text.splitAt '/' (Text.lower user) = [Text.lower user] := by
    rw [Text.splitAt, Chars.splitAt_of_not_mem hlower.whole, List.map_singleton,
      String.ofList_toList]
  have hroot := wellFormed_root systemOwner
  have htmp := wellFormed_putDirectory hroot hroot.root (s := "tmp") (by constructor <;> decide)
    (by simp [get?_put]) (by rfl : checkMode "777" = .ok ()) systemOwner
  have hu := wellFormed_putDirectory htmp htmp.root (s := "u") (by constructor <;> decide)
    (by simp [get?_put]) (by rfl : checkMode "755" = .ok ()) systemOwner
  have hall := wellFormed_putDirectory hu (hasDirectory_put_self rfl) hlower
    (by simp [get?_put]) (by rfl : checkMode "755" = .ok ()) user
  unfold initial
  rw [hhome]
  exact hall

/-! ## What makes it a tree -/

/-- Each node is found by its text and lies in a directory, whose text ends
before the last slash. Directories are all that lies above a node, and nothing
is written below a file. -/
structure IsTree (t : FileTree) : Prop where
  found : ∀ p node, t.nodes.get? p = some node → t.find (Path.ofText p.text) = .ok node
  parent : ∀ p node, t.nodes.get? p = some node → p ≠ .root → ∃ q, p.parent? = some q ∧
    t.HasDirectory q ∧ p.text = q.childPrefix ++ p.name ∧ '/' ∉ p.name.toList
  above : ∀ p node q, t.nodes.get? p = some node → q.isBelow p = true → t.HasDirectory q
  leaf : ∀ p content q node, t.content? p = some content → t.nodes.get? q = some node →
    Text.startsWith (p.text ++ "/") q.text = false

theorem WellFormed.isNormal (h : t.WellFormed) (hp : t.nodes.get? p = some node) : p.IsNormal := by
  have hnormal := Path.isNormal_ofText p.text
  rwa [h.normal p node hp] at hnormal

/-- From a node up to the root there are directories. -/
theorem WellFormed.above (h : t.WellFormed) {q r : Path} (hnode : t.nodes.get? (q ++ r) = some node)
    (hr : r ≠ []) : t.HasDirectory q := by
  induction hlength : r.length generalizing r node with
  | zero => exact absurd (List.length_eq_zero_iff.1 hlength) hr
  | succ n ih =>
    have hsnoc : q ++ r = (q ++ r.dropLast) ++ [r.getLast hr] := by
      rw [List.append_assoc, List.dropLast_concat_getLast]
    have hparent := h.parent _ node hnode _ (Path.parent?_eq_some_iff.2 ⟨_, hsnoc⟩)
    by_cases hfront : r.dropLast = []
    · rw [hfront, List.append_nil] at hparent
      exact hparent
    · obtain ⟨directory, hdirectory, _⟩ := hparent
      exact ih hdirectory hfront (by rw [List.length_dropLast, hlength]; rfl)

theorem WellFormed.isTree (h : t.WellFormed) : t.IsTree where
  found p node hp := by
    rw [h.normal p node hp]
    exact find_of_node hp
  parent p node hp hne := by
    have hfront : p = p.dropLast ++ [p.getLast hne] := (List.dropLast_concat_getLast hne).symm
    have hparent := Path.parent?_eq_some_iff.2 ⟨_, hfront⟩
    exact ⟨p.dropLast, hparent, h.parent p node hp _ hparent, Path.text_of_parent? hparent,
      Path.slash_not_mem_name (h.isNormal hp)⟩
  above p node q hp hbelow := by
    obtain ⟨r, hr, rfl⟩ := Path.isBelow_iff.1 hbelow
    exact h.above hp hr
  leaf p content q node hcontent hq := by
    rw [Bool.eq_false_iff]
    intro hstarts
    obtain ⟨file, hfile, hkind⟩ := content?_eq_some_iff.1 hcontent
    have hdirectory : ¬t.HasDirectory p := by
      rintro ⟨other, hother, hisdir⟩
      rw [hfile] at hother
      cases hother
      simp [Node.isDirectory, hkind] at hisdir
    have hroot : p ≠ [] := by
      rintro rfl
      exact hdirectory h.root
    have hlonger : q.text ≠ p.text := by
      obtain ⟨rest, hrest⟩ := Text.startsWith_iff.1 hstarts
      intro hsame
      have hlength := congrArg (·.toList.length) (hsame.symm.trans hrest)
      simp only [String.toList_append, List.length_append] at hlength
      have hslash : "/".toList.length = 1 := rfl
      omega
    rw [← Path.childPrefix_of_ne hroot] at hstarts
    have hbelow := (Path.isBelow_iff_startsWith (h.isNormal hfile) (h.isNormal hq)).2
      ⟨hstarts, hlonger⟩
    obtain ⟨r, hr, rfl⟩ := Path.isBelow_iff.1 hbelow
    exact hdirectory (h.above hq hr)

end FileTree

/-- The first tree of a user whose name is one segment is well formed, every
change keeps a tree well formed, and so every run leaves a tree. -/
theorem Machine.files_stay_a_tree {user : String} (huser : Path.IsSegment user) :
    (FileTree.initial user).WellFormed ∧ FileTree.Kept FileTree.WellFormed ∧
      ∀ history, ((Machine.initial user).after history).files.WellFormed ∧
        ((Machine.initial user).after history).files.IsTree := by
  refine ⟨FileTree.wellFormed_initial huser, FileTree.wellFormed_kept, ?_⟩
  intro history
  have hfirst : (Machine.initial user).files.WellFormed :=
    FileTree.wellFormed_initial (Path.isSegment_upper huser)
  have hafter := Machine.after_keeps_files FileTree.wellFormed_kept hfirst history
  exact ⟨hafter, hafter.isTree⟩

theorem Machine.files_of_ibmuser_stay_a_tree : Path.IsSegment "IBMUSER" ∧
    (FileTree.initial "IBMUSER").WellFormed ∧
    ∀ history, ((Machine.initial "IBMUSER").after history).files.IsTree := by
  have huser : Path.IsSegment "IBMUSER" := by constructor <;> decide
  obtain ⟨hfirst, _, hruns⟩ := Machine.files_stay_a_tree huser
  exact ⟨huser, hfirst, fun history => (hruns history).2⟩

end MvsGateway.Host
