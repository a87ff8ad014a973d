import Mathlib.Data.List.Basic
import MvsGateway.Proofs.FileTree.WellFormed

/-!
# One node at a time

A write of a file and the creation of a file or a directory set the node at
one path. Which path that is depends on what the text names, not on how it is
spelled, and every other node stays as it is. A write also keeps what a file
has beside its content; only a file that it creates gets a mode and an owner.
-/

namespace MvsGateway.Host

/-! ## Modes -/

namespace FileTree

/-- Three digits to the base eight. -/
def IsOctalMode (mode : String) : Prop :=
  ∃ a b c : Fin 8,
    mode = String.ofList [Nat.digitChar a.val, Nat.digitChar b.val, Nat.digitChar c.val]

theorem isOctal_iff {c : Char} :
    ('0' ≤ c ∧ c ≤ '7') ↔ ∃ d : Fin 8, Nat.digitChar d.val = c := by
  constructor
  · rintro ⟨hlow, hhigh⟩
    have hlow' : 48 ≤ c.toNat := hlow
    have hhigh' : c.toNat ≤ 55 := hhigh
    have hdigit : ∀ d : Fin 8, Nat.digitChar d.val = Char.ofNat (48 + d.val) := by decide
    refine ⟨⟨c.toNat - 48, by omega⟩, ?_⟩
    rw [hdigit, Nat.add_sub_cancel' hlow', Char.ofNat_toNat]
  · rintro ⟨d, rfl⟩
    revert d
    decide

theorem checkMode_eq_ok_iff {mode : String} : checkMode mode = .ok () ↔ IsOctalMode mode := by
  have hchecks : checkMode mode = .ok () ↔
      mode.toList.length = 3 ∧ ∀ c ∈ mode.toList, '0' ≤ c ∧ c ≤ '7' := by
    unfold checkMode
    split
    · rename_i h
      simpa using h
    · rename_i h
      simpa using h
  rw [hchecks]
  constructor
  · rintro ⟨hlength, hdigits⟩
    obtain ⟨x, y, z, hchars⟩ := List.length_eq_three.1 hlength
    simp only [hchars, List.mem_cons, List.not_mem_nil, or_false, forall_eq_or_imp, forall_eq]
      at hdigits
    obtain ⟨hx, hy, hz⟩ := hdigits
    obtain ⟨a, rfl⟩ := isOctal_iff.1 hx
    obtain ⟨b, rfl⟩ := isOctal_iff.1 hy
    obtain ⟨c, rfl⟩ := isOctal_iff.1 hz
    exact ⟨a, b, c, by rw [← hchars, String.ofList_toList]⟩
  · rintro ⟨a, b, c, rfl⟩
    rw [String.toList_ofList]
    refine ⟨rfl, ?_⟩
    simp only [List.mem_cons, List.not_mem_nil, or_false, forall_eq_or_imp, forall_eq]
    exact ⟨isOctal_iff.2 ⟨a, rfl⟩, isOctal_iff.2 ⟨b, rfl⟩, isOctal_iff.2 ⟨c, rfl⟩⟩

/-! ## Where a node can be set -/

/-- Nothing is at the path, and the path above it is that of a directory. -/
def IsVacant (t : FileTree) (p : Path) : Prop :=
  t.nodes.get? p = none ∧ ∃ q, p.parent? = some q ∧ t.HasDirectory q

def HasFile (t : FileTree) (p : Path) : Prop := ∃ content, t.content? p = some content

variable {t : FileTree} {p : Path} {path mode owner : String} {kind : NodeKind}

/-- The root is its own place to look for a directory, but it cannot be absent
then. -/
theorem hasRoom_iff : t.HasRoom p ↔ t.IsVacant p := by
  cases hparent : p.parent? with
  | some q => simp only [HasRoom, IsVacant, HasDirectory, hparent, Option.getD_some,
      Option.some.injEq, exists_eq_left']
  | none =>
    have hroot : p = .root := by
      unfold Path.parent? at hparent
      split at hparent
      · rename_i hempty
        exact List.isEmpty_iff.1 hempty
      · cases hparent
    constructor
    · rintro ⟨habsent, directory, hdirectory, _⟩
      rw [hparent, Option.getD_none, ← hroot, habsent] at hdirectory
      cases hdirectory
    · rintro ⟨_, q, hq, _⟩
      rw [hparent] at hq
      cases hq

/-! ## Creations -/

theorem add_eq_ok_iff :
    (t.add path kind mode owner).1 = .ok () ↔ IsOctalMode mode ∧ t.IsVacant (Path.ofText path) := by
  rw [← checkMode_eq_ok_iff, ← hasRoom_iff]
  rcases t.add_cases path kind mode owner with ⟨e, hr, hno⟩ | ⟨hmode, hroom, hr⟩
  · rw [hr]
    refine ⟨nofun, fun ⟨hmode, hroom⟩ => ?_⟩
    rcases hno with hno | hno
    · rw [hmode] at hno
      cases hno
    · exact absurd hroom hno
  · rw [hr]
    exact ⟨fun _ => ⟨hmode, hroom⟩, fun _ => rfl⟩

theorem add_of_ok (h : (t.add path kind mode owner).1 = .ok ()) :
    (t.add path kind mode owner).2 = t.put (Path.ofText path) ⟨kind, mode, owner, none⟩ := by
  rcases t.add_cases path kind mode owner with ⟨e, hr, _⟩ | ⟨_, _, hr⟩
  · rw [hr] at h
    cases h
  · rw [hr]

/-! ## Writes -/

/-- What a write leaves at a path: the node with other content, or a file with
a mode of its own. -/
def writtenNode (t : FileTree) (p : Path) (data owner : String) : Node :=
  match t.nodes.get? p with
  | some node => { node with kind := .file data }
  | none => ⟨.file data, writtenMode, owner, none⟩

theorem put_writtenNode_of_content? {held : String} (h : t.content? p = some held)
    (data owner : String) : t.put p (t.writtenNode p data owner) = t.putContent p data := by
  obtain ⟨node, hnode, _⟩ := content?_eq_some_iff.1 h
  simp only [writtenNode, putContent, hnode]

/-- With no tag to expect, a write needs a file or a place for one. -/
theorem write_eq_ok_iff (t : FileTree) (path data owner : String) :
    (t.write path data "" owner).1 = .ok (contentTag data) ↔
      t.HasFile (Path.ofText path) ∨ t.IsVacant (Path.ofText path) := by
  rw [← hasRoom_iff]
  rcases t.write_cases path data "" owner with
    ⟨e, hr, hfull⟩ | ⟨_, hexpected, _⟩ | ⟨hroom, _, hr⟩ | ⟨held, hheld, _, hr⟩
  · rw [hr]
    refine ⟨nofun, ?_⟩
    rintro (⟨held, hheld⟩ | hroom)
    · rw [write_of_content? data "" owner hheld] at hr
      cases hr
    · exact absurd hroom hfull
  · exact absurd rfl hexpected
  · rw [hr]
    exact ⟨fun _ => .inr hroom, fun _ => rfl⟩
  · rw [hr]
    exact ⟨fun _ => .inl ⟨held, hheld⟩, fun _ => rfl⟩

/-- A write that is accepted sets the node, with whatever tag it expected. -/
theorem write_of_ok {data etag tag : String} (h : (t.write path data etag owner).1 = .ok tag) :
    tag = contentTag data ∧ (t.write path data etag owner).2 =
      t.put (Path.ofText path) (t.writtenNode (Path.ofText path) data owner) := by
  rcases t.write_cases path data etag owner with
    ⟨e, hr, _⟩ | ⟨_, _, _, hr⟩ | ⟨hroom, _, hr⟩ | ⟨held, hheld, _, hr⟩
  · rw [hr] at h
    cases h
  · rw [hr] at h
    cases h
  · rw [hr] at h ⊢
    cases h
    exact ⟨rfl, by simp only [writtenNode, hroom.1]⟩
  · rw [hr] at h ⊢
    cases h
    exact ⟨rfl, (put_writtenNode_of_content? hheld data owner).symm⟩

theorem content?_writtenNode (t : FileTree) (p : Path) (data owner : String) :
    (t.writtenNode p data owner).content? = some data := by
  unfold writtenNode
  split
  · rfl
  · rfl

end FileTree

/-! ## The machine -/

namespace Machine

/-- The machine `next` has this node at the path, and everything else is as in
`s`: no other node has changed, come or gone. -/
structure SetsNode (s : Machine) (p : Path) (node : Node) (next : Machine) : Prop where
  there : next.files.nodes.get? p = some node
  others : ∀ q, q ≠ p → next.files.nodes.get? q = s.files.nodes.get? q
  rest : next = { s with files := next.files }

/-- After a write the content is read under every spelling of the path. A file
that was there keeps its mode, owner and tag; a new one is the user's. -/
structure WritesFile (s : Machine) (path data : String) (next : Machine) : Prop where
  read : ∀ time q encoding, (Path.ofText q).text = (Path.ofText path).text →
    (invoke time (.readUnixFile q encoding) next).1 = .ok (.text data)
  kept : ∀ node, s.files.nodes.get? (Path.ofText path) = some node →
    s.SetsNode (Path.ofText path) { node with kind := .file data } next
  created : s.files.nodes.get? (Path.ofText path) = none →
    s.SetsNode (Path.ofText path) ⟨.file data, "644", s.user, none⟩ next

/-- The call creates a node exactly where one can be, with a proper mode. -/
structure CreatesNode (s : Machine) (path mode : String) (kind : NodeKind) (r : Answer × Machine) :
    Prop where
  succeeds_iff : (∃ o, r.1 = .ok o) ↔
    FileTree.IsOctalMode mode ∧ s.files.IsVacant (Path.ofText path)
  created : (∃ o, r.1 = .ok o) → s.SetsNode (Path.ofText path) ⟨kind, mode, s.user, none⟩ r.2

variable {s : Machine} {path : String}

theorem setsNode_put (s : Machine) (p : Path) (node : Node) :
    s.SetsNode p node { s with files := s.files.put p node } where
  there := by rw [FileTree.get?_put, if_pos rfl]
  others q hq := by rw [FileTree.get?_put, if_neg hq]
  rest := rfl

theorem writesFile_put (s : Machine) (path data : String) :
    s.WritesFile path data { s with
      files := s.files.put (Path.ofText path)
        (s.files.writtenNode (Path.ofText path) data s.user) } where
  read time q encoding hsame := by
    have hq : Path.ofText q = Path.ofText path :=
      Path.text_injective (Path.isNormal_ofText q) (Path.isNormal_ofText path) hsame
    rw [invoke, answer_eq_ok_iff]
    refine ⟨data, FileTree.read_eq_ok_iff.2 ?_, rfl⟩
    rw [hq, FileTree.content?_put, if_pos rfl, FileTree.content?_writtenNode]
  kept node hnode := by
    simp only [FileTree.writtenNode, hnode]
    exact setsNode_put s _ _
  created habsent := by
    simp only [FileTree.writtenNode, habsent]
    exact setsNode_put s _ _

theorem writesFile_of_ok {time data encoding etag : String} {o : Output}
    (h : (invoke time (.writeUnixFile path data encoding etag) s).1 = .ok o) :
    s.WritesFile path data (invoke time (.writeUnixFile path data encoding etag) s).2 := by
  rw [invoke, onFiles_fst, answer_eq_ok_iff] at h
  obtain ⟨tag, hwrite, _⟩ := h
  rw [invoke, onFiles_snd, (FileTree.write_of_ok hwrite).2]
  exact writesFile_put s path data

theorem createsNode_add (s : Machine) (path mode : String) (kind : NodeKind) :
    s.CreatesNode path mode kind
      (s.onFiles (fun _ => .done) (s.files.add path kind mode s.user)) := by
  have hok : (∃ o, (s.onFiles (fun _ => .done) (s.files.add path kind mode s.user)).1 = .ok o) ↔
      (s.files.add path kind mode s.user).1 = .ok () := by
    simp only [onFiles_fst, answer_eq_ok_iff]
    constructor
    · rintro ⟨_, _, hadd, _⟩
      exact hadd
    · intro hadd
      exact ⟨.done, (), hadd, rfl⟩
  constructor
  · rw [hok, FileTree.add_eq_ok_iff]
  · intro h
    rw [onFiles_snd, FileTree.add_of_ok (hok.1 h)]
    exact setsNode_put s _ _

/-- A write or a creation succeeds exactly where it can set its node, and then
this node is all that it changes. -/
theorem file_changes_set_one_node (time path : String) (s : Machine) :
    (∀ data encoding, (∃ o, (invoke time (.writeUnixFile path data encoding "") s).1 = .ok o) ↔
      s.files.HasFile (Path.ofText path) ∨ s.files.IsVacant (Path.ofText path)) ∧
    (∀ data encoding etag o, (invoke time (.writeUnixFile path data encoding etag) s).1 = .ok o →
      s.WritesFile path data (invoke time (.writeUnixFile path data encoding etag) s).2) ∧
    (∀ mode, s.CreatesNode path mode (.file "") (invoke time (.createFile path mode) s)) ∧
    ∀ mode, s.CreatesNode path mode .directory (invoke time (.createDirectory path mode) s) := by
  refine ⟨?_, ?_, ?_, ?_⟩
  · intro data encoding
    rw [← FileTree.write_eq_ok_iff s.files path data s.user]
    simp only [invoke, onFiles_fst, answer_eq_ok_iff]
    constructor
    · rintro ⟨_, tag, hwrite, _⟩
      rw [hwrite, (FileTree.write_of_ok hwrite).1]
    · intro hwrite
      exact ⟨_, _, hwrite, rfl⟩
  · intro data encoding etag o h
    exact writesFile_of_ok h
  · intro mode
    exact createsNode_add s path mode (.file "")
  · intro mode
    exact createsNode_add s path mode .directory

/-- A file that is not there yet is written under one spelling and read under
another. -/
theorem write_sets_new_file :
    (invoke "" (.readUnixFile "tmp//x" "")
      (invoke "" (.writeUnixFile "/tmp/./x" "X" "" "") (initial "U")).2).1 = .ok (.text "X") ∧
    (initial "U").SetsNode ["tmp", "x"] ⟨.file "X", "644", "U", none⟩
      (invoke "" (.writeUnixFile "/tmp/./x" "X" "" "") (initial "U")).2 := by
  obtain ⟨hwrite, hleaves, _, _⟩ := file_changes_set_one_node "" "/tmp/./x" (initial "U")
  have hvacant : (initial "U").files.IsVacant (Path.ofText "/tmp/./x") :=
    ⟨rfl, ["tmp"], rfl, _, rfl, rfl⟩
  obtain ⟨o, ho⟩ := (hwrite "X" "").2 (.inr hvacant)
  have hwrites := hleaves "X" "" "" o ho
  exact ⟨hwrites.read "" "tmp//x" "" rfl, hwrites.created rfl⟩

end Machine

end MvsGateway.Host
