import MvsGateway.Host.FileTree

/-!
# What a change of the file tree can do

The content of a path, and for each operation the list of its outcomes:
refused with the tree as it was, or accepted with the one change that it
makes. Only a write has a third outcome, refused with the file that it created
left behind.
-/

namespace MvsGateway.Host

/-- The content of a file; a directory has none. -/
def Node.content? (n : Node) : Option String :=
  match n.kind with
  | .file content => some content
  | .directory => none

namespace FileTree

theorem find_of_node {t : FileTree} {p : Path} {node : Node} (h : t.nodes.get? p = some node) :
    t.find p = .ok node := by
  simp [find, h]

theorem find_of_absent {t : FileTree} {p : Path} (h : t.nodes.get? p = none) :
    t.find p = .error (.notFound .path p.text) := by
  simp [find, h]

/-! ## Contents -/

def content? (t : FileTree) (p : Path) : Option String := (t.nodes.get? p).bind Node.content?

/-- The tree with another content in a file. -/
def putContent (t : FileTree) (p : Path) (content : String) : FileTree :=
  match t.nodes.get? p with
  | some node => t.put p { node with kind := .file content }
  | none => t

theorem content?_eq_some_iff {t : FileTree} {p : Path} {content : String} :
    t.content? p = some content ↔
      ∃ node, t.nodes.get? p = some node ∧ node.kind = .file content := by
  unfold content?
  rw [Option.bind_eq_some_iff]
  constructor
  · rintro ⟨node, hnode, hcontent⟩
    refine ⟨node, hnode, ?_⟩
    cases hkind : node.kind with
    | file held => simpa [Node.content?, hkind] using hcontent
    | directory => simp [Node.content?, hkind] at hcontent
  · rintro ⟨node, hnode, hkind⟩
    exact ⟨node, hnode, by simp [Node.content?, hkind]⟩

theorem content?_put (t : FileTree) (p q : Path) (node : Node) :
    (t.put p node).content? q = if q = p then node.content? else t.content? q := by
  simp only [content?, put, Table.get?_insert]
  split <;> rfl

theorem content?_putContent {t : FileTree} {p : Path} {held : String}
    (h : t.content? p = some held) (content : String) (q : Path) :
    (t.putContent p content).content? q = if q = p then some content else t.content? q := by
  obtain ⟨node, hnode, _⟩ := content?_eq_some_iff.1 h
  simp only [putContent, hnode]
  rw [content?_put]
  rfl

theorem putContent_put (t : FileTree) (p : Path) (node : Node) (content : String) :
    (t.put p node).putContent p content = t.put p { node with kind := .file content } := by
  simp [putContent, put]

/-- The content that is there can be put again. -/
theorem putContent_self {t : FileTree} {p : Path} {content : String}
    (h : t.content? p = some content) : t.putContent p content = t := by
  obtain ⟨node, hnode, hkind⟩ := content?_eq_some_iff.1 h
  have hsame : { node with kind := .file content } = node := by rw [← hkind]
  simp only [putContent, hnode, put, hsame]
  rw [Table.insert_eq_self hnode]

/-- A read answers with the content under the path, if it is a file. -/
theorem read_eq_ok_iff {t : FileTree} {path content : String} :
    t.read path = .ok content ↔ t.content? (Path.ofText path) = some content := by
  rw [content?_eq_some_iff]
  unfold read
  cases hnode : t.nodes.get? (Path.ofText path) with
  | none => simp [find_of_absent hnode, bind, Except.bind]
  | some node =>
    cases hkind : node.kind <;> simp [find_of_node hnode, bind, Except.bind, hkind]

/-! ## Outcomes -/

/-- A path where a node can be added: nothing is there and the parent is a
directory. -/
def HasRoom (t : FileTree) (p : Path) : Prop :=
  t.nodes.get? p = none ∧
    ∃ parent, t.nodes.get? (p.parent?.getD .root) = some parent ∧ parent.isDirectory = true

theorem add_cases (t : FileTree) (path : String) (kind : NodeKind) (mode owner : String) :
    (∃ e, t.add path kind mode owner = (.error e, t) ∧
      (checkMode mode = .error e ∨ ¬t.HasRoom (Path.ofText path))) ∨
      (checkMode mode = .ok () ∧ t.HasRoom (Path.ofText path) ∧
        t.add path kind mode owner =
          (.ok (), t.put (Path.ofText path) ⟨kind, mode, owner, none⟩)) := by
  simp only [add]
  generalize Path.ofText path = p
  cases hmode : checkMode mode with
  | error e => exact .inl ⟨e, rfl, .inl rfl⟩
  | ok =>
    cases hnode : t.nodes.get? p with
    | some node =>
      refine .inl ⟨.alreadyExists .path p.text, ?_, .inr fun h => ?_⟩
      · simp [Table.contains, hnode]
      · rw [h.1] at hnode
        cases hnode
    | none =>
      simp only [Table.contains, hnode, Option.isSome_none, Bool.false_eq_true, if_false]
      cases hparent : t.nodes.get? (p.parent?.getD .root) with
      | none =>
        rw [find_of_absent hparent]
        refine .inl ⟨_, rfl, .inr ?_⟩
        rintro ⟨_, parent, h, _⟩
        rw [h] at hparent
        cases hparent
      | some parent =>
        rw [find_of_node hparent]
        cases hdir : parent.isDirectory with
        | true => exact .inr ⟨trivial, ⟨hnode, parent, hparent, hdir⟩, by simp [hdir]⟩
        | false =>
          refine .inl ⟨.invalid (.notDirectory (p.parent?.getD .root).text), by simp [hdir],
            .inr ?_⟩
          rintro ⟨_, other, h, hother⟩
          rw [h] at hparent
          cases hparent
          rw [hdir] at hother
          cases hother

theorem delete_cases (t : FileTree) (path : String) (recursive : Bool) :
    (∃ e, t.delete path recursive = (.error e, t)) ∨
      ∃ node, Path.ofText path ≠ [] ∧ t.nodes.get? (Path.ofText path) = some node ∧
        (t.hasBelow (Path.ofText path) = false ∨ recursive = true) ∧
        t.delete path recursive = (.ok (), ⟨t.nodes.filter fun q _ =>
          !(q == Path.ofText path || (Path.ofText path).isBelow q)⟩) := by
  simp only [delete]
  generalize Path.ofText path = p
  cases hroot : p.isEmpty with
  | true => exact .inl ⟨_, rfl⟩
  | false =>
    cases hnode : t.nodes.get? p with
    | none =>
      rw [find_of_absent hnode]
      exact .inl ⟨_, rfl⟩
    | some node =>
      rw [find_of_node hnode]
      cases hbelow : t.hasBelow p && !recursive with
      | true => exact .inl ⟨_, rfl⟩
      | false =>
        refine .inr ⟨node, by simpa using hroot, rfl, ?_, rfl⟩
        cases recursive <;> simp_all

theorem update_cases (t : FileTree) (path : String) (recursive : Bool) (change : Node → Node) :
    (t.nodes.get? (Path.ofText path) = none ∧
      t.update path recursive change = (.error (.notFound .path (Path.ofText path).text), t)) ∨
      ∃ node, t.nodes.get? (Path.ofText path) = some node ∧
        t.update path recursive change = (.ok (), ⟨t.nodes.mapValues fun q node =>
          if q == Path.ofText path || (recursive && (Path.ofText path).isBelow q) then change node
          else node⟩) := by
  simp only [update]
  generalize Path.ofText path = p
  cases hnode : t.nodes.get? p with
  | none => exact .inl ⟨rfl, by rw [find_of_absent hnode]⟩
  | some node => exact .inr ⟨node, rfl, by rw [find_of_node hnode]⟩

theorem replace_of_file {t : FileTree} {p : Path} {content : String} (data etag : String)
    (h : t.content? p = some content) :
    t.replace p data etag =
      match checkTag p.text etag content with
      | .error e => (.error e, t)
      | .ok () => (.ok (contentTag data), t.putContent p data) := by
  obtain ⟨node, hnode, hkind⟩ := content?_eq_some_iff.1 h
  rcases hcheck : checkTag p.text etag content with e | ⟨⟩
  · simp only [replace, find_of_node hnode, hkind, hcheck]
  · simp only [replace, find_of_node hnode, hkind, hcheck, putContent, hnode]

theorem replace_of_no_file {t : FileTree} {p : Path} (data etag : String)
    (h : t.content? p = none) : ∃ e, t.replace p data etag = (.error e, t) := by
  cases hnode : t.nodes.get? p with
  | none => exact ⟨.notFound .path p.text, by simp only [replace, find_of_absent hnode]⟩
  | some node =>
    cases hkind : node.kind with
    | directory =>
      exact ⟨.invalid (.isDirectory p.text), by simp only [replace, find_of_node hnode, hkind]⟩
    | file content =>
      rw [content?_eq_some_iff.2 ⟨node, hnode, hkind⟩] at h
      cases h

theorem write_of_content? {t : FileTree} {path held : String} (data etag owner : String)
    (h : t.content? (Path.ofText path) = some held) :
    t.write path data etag owner =
      match checkTag (Path.ofText path).text etag held with
      | .error e => (.error e, t)
      | .ok () => (.ok (contentTag data), t.putContent (Path.ofText path) data) := by
  obtain ⟨node, hnode, _⟩ := content?_eq_some_iff.1 h
  have hpresent : t.nodes.contains (Path.ofText path) = true := by
    rw [Table.contains, hnode]
    rfl
  rw [← replace_of_file data etag h, write, if_pos hpresent]

theorem checkMode_writtenMode : checkMode writtenMode = .ok () := rfl

/-- A write finds no file and no room for one, or a file with another tag; it
finds room, but its tag is not that of an empty file; or nothing is in its
way. -/
theorem write_cases (t : FileTree) (path data etag owner : String) :
    (∃ e, t.write path data etag owner = (.error e, t) ∧ ¬t.HasRoom (Path.ofText path)) ∨
      (t.HasRoom (Path.ofText path) ∧ etag ≠ "" ∧ etag ≠ contentTag "" ∧
        t.write path data etag owner =
          (.error (.etagMismatch (Path.ofText path).text etag (contentTag "")),
            t.put (Path.ofText path) ⟨.file "", writtenMode, owner, none⟩)) ∨
      (t.HasRoom (Path.ofText path) ∧ (etag = "" ∨ contentTag "" = etag) ∧
        t.write path data etag owner = (.ok (contentTag data),
          t.put (Path.ofText path) ⟨.file data, writtenMode, owner, none⟩)) ∨
      ∃ content, t.content? (Path.ofText path) = some content ∧
        (etag = "" ∨ contentTag content = etag) ∧
        t.write path data etag owner =
          (.ok (contentTag data), t.putContent (Path.ofText path) data) := by
  simp only [write]
  cases hpresent : t.nodes.contains (Path.ofText path) with
  | true =>
    -- The node is in the way of a new one, so that no refusal is for want of room.
    have hfull : ¬t.HasRoom (Path.ofText path) := by
      rintro ⟨habsent, _⟩
      simp [Table.contains, habsent] at hpresent
    simp only [if_true]
    cases hcontent : t.content? (Path.ofText path) with
    | none =>
      obtain ⟨e, hr⟩ := replace_of_no_file data etag hcontent
      exact .inl ⟨e, hr, hfull⟩
    | some content =>
      rw [replace_of_file data etag hcontent]
      cases hcheck : checkTag (Path.ofText path).text etag content with
      | error e => exact .inl ⟨e, rfl, hfull⟩
      | ok => exact .inr (.inr (.inr ⟨content, rfl, checkTag_eq_ok_iff.1 hcheck, rfl⟩))
  | false =>
    simp only [Bool.false_eq_true, if_false, createFile]
    rcases t.add_cases path (.file "") writtenMode owner with ⟨e, hadd, hno⟩ | ⟨_, hroom, hadd⟩
    · rw [hadd]
      have hmode : checkMode writtenMode ≠ .error e := by
        rw [checkMode_writtenMode]
        intro h
        cases h
      exact .inl ⟨e, rfl, hno.resolve_left hmode⟩
    · -- The file is there now, and empty, so that the rest is a write to a file.
      simp only [hadd]
      have hempty : (t.put (Path.ofText path) ⟨.file "", writtenMode, owner, none⟩).content?
          (Path.ofText path) = some "" := by
        rw [content?_put, if_pos rfl]
        rfl
      rw [replace_of_file data etag hempty, putContent_put]
      cases hcheck : checkTag (Path.ofText path).text etag "" with
      | error e =>
        obtain ⟨hexpected, hstale, rfl⟩ := checkTag_eq_error_iff.1 hcheck
        exact .inr (.inl ⟨hroom, hexpected, Ne.symm hstale, rfl⟩)
      | ok => exact .inr (.inr (.inl ⟨hroom, checkTag_eq_ok_iff.1 hcheck, rfl⟩))

end FileTree

end MvsGateway.Host
