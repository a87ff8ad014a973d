import MvsGateway.Host.Machine
import MvsGateway.Proofs.FileTree.Outcome

/-!
# Refused changes of the file tree

A refused call leaves the machine as it was, with one exception. A write to a
free path creates the file before it looks at the expected tag. Where a tag is
expected and an empty file has another one, the write is refused and the empty
file stays.
-/

namespace MvsGateway.Host

/-- The calls that may change the file tree. -/
def Call.changesFiles : Call → Bool
  | .writeUnixFile .. | .createFile .. | .createDirectory .. | .deletePath .. | .changeMode ..
  | .changeOwner .. | .changeTag .. => true
  | _ => false

/-- A write that expects a tag where a file can be created, and not the tag of
an empty file. -/
def Call.StrandsFile : Call → FileTree → Prop
  | .writeUnixFile path _ _ etag, t =>
    t.HasRoom (Path.ofText path) ∧ etag ≠ "" ∧ etag ≠ contentTag ""
  | _, _ => False

/-- The file that such a write leaves behind. -/
def Node.stranded (owner : String) : Node := ⟨.file "", FileTree.writtenMode, owner, none⟩

namespace FileTree

theorem put_ne {t : FileTree} {p : Path} (node : Node) (h : t.nodes.get? p = none) :
    t.put p node ≠ t := by
  intro hsame
  have hput : (t.put p node).nodes.get? p = some node := by
    rw [put, Table.get?_insert, if_pos rfl]
  rw [hsame, h] at hput
  cases hput

/-! ## Refusals by operation -/

theorem add_of_error {t : FileTree} {path mode owner : String} {kind : NodeKind} {e : Error}
    (h : (t.add path kind mode owner).1 = .error e) : (t.add path kind mode owner).2 = t := by
  rcases t.add_cases path kind mode owner with ⟨_, hr, _⟩ | ⟨_, _, hr⟩
  · rw [hr]
  · rw [hr] at h
    cases h

theorem delete_of_error {t : FileTree} {path : String} {recursive : Bool} {e : Error}
    (h : (t.delete path recursive).1 = .error e) : (t.delete path recursive).2 = t := by
  rcases t.delete_cases path recursive with ⟨_, hr⟩ | ⟨_, _, _, _, hr⟩
  · rw [hr]
  · rw [hr] at h
    cases h

theorem update_of_error {t : FileTree} {path : String} {recursive : Bool} {change : Node → Node}
    {e : Error} (h : (t.update path recursive change).1 = .error e) :
    (t.update path recursive change).2 = t := by
  rcases t.update_cases path recursive change with ⟨_, hr⟩ | ⟨_, _, hr⟩
  · rw [hr]
  · rw [hr] at h
    cases h

theorem changeMode_of_error {t : FileTree} {path mode : String} {recursive : Bool} {e : Error}
    (h : (t.changeMode path mode recursive).1 = .error e) :
    (t.changeMode path mode recursive).2 = t := by
  unfold changeMode at h ⊢
  cases hmode : checkMode mode with
  | error _ => rfl
  | ok _ =>
    rw [hmode] at h
    exact update_of_error h

theorem changeOwner_of_error {t : FileTree} {path owner : String} {recursive : Bool} {e : Error}
    (h : (t.changeOwner path owner recursive).1 = .error e) :
    (t.changeOwner path owner recursive).2 = t := by
  unfold changeOwner at h ⊢
  cases howner : Text.isBlank owner with
  | true => rfl
  | false =>
    rw [howner] at h
    exact update_of_error h

/-- A write that finds a file of another tag, or no room for one, does not
create anything. -/
theorem write_of_error {t : FileTree} {path data etag owner : String} {e : Error}
    (h : (t.write path data etag owner).1 = .error e)
    (hkeeps : ¬(t.HasRoom (Path.ofText path) ∧ etag ≠ "" ∧ etag ≠ contentTag "")) :
    (t.write path data etag owner).2 = t := by
  rcases t.write_cases path data etag owner with
    ⟨_, hr, _⟩ | ⟨hroom, hexpected, hstale, _⟩ | ⟨_, _, hr⟩ | ⟨_, _, _, hr⟩
  · rw [hr]
  · exact absurd ⟨hroom, hexpected, hstale⟩ hkeeps
  · rw [hr] at h
    cases h
  · rw [hr] at h
    cases h

theorem write_of_hasRoom {t : FileTree} {path etag : String} (data owner : String)
    (hroom : t.HasRoom (Path.ofText path)) (hexpected : etag ≠ "")
    (hstale : etag ≠ contentTag "") :
    t.write path data etag owner =
      (.error (.etagMismatch (Path.ofText path).text etag (contentTag "")),
        t.put (Path.ofText path) (.stranded owner)) := by
  rcases t.write_cases path data etag owner with
    ⟨_, _, hno⟩ | ⟨_, _, _, hr⟩ | ⟨_, htag, _⟩ | ⟨content, hcontent, _⟩
  · exact absurd hroom hno
  · exact hr
  · rcases htag with htag | htag
    · exact absurd htag hexpected
    · exact absurd htag.symm hstale
  · obtain ⟨node, hnode, _⟩ := content?_eq_some_iff.1 hcontent
    rw [hroom.1] at hnode
    cases hnode

end FileTree

namespace Machine

theorem onFiles_of_error {α : Type} {s : Machine} {output : α → Output}
    {r : Except Error α × FileTree} (h : ∀ e, r.1 = .error e → r.2 = s.files) :
    ¬((∃ e, (s.onFiles output r).1 = .error e) ∧ (s.onFiles output r).2 ≠ s) := by
  apply not_refused_and_changed
  intro e he
  rw [onFiles_snd, h e he]

/-- A change that strands no file leaves the machine as it was when it is
refused. -/
theorem refused_file_change_keeps {time : String} {call : Call} {s : Machine}
    (changes : call.changesFiles = true) (hkeeps : ¬call.StrandsFile s.files) :
    ¬((∃ e, (invoke time call s).1 = .error e) ∧ (invoke time call s).2 ≠ s) := by
  cases call with
  | writeUnixFile path data encoding etag =>
    exact onFiles_of_error fun e he => FileTree.write_of_error he hkeeps
  | createFile path mode => exact onFiles_of_error fun e he => FileTree.add_of_error he
  | createDirectory path mode => exact onFiles_of_error fun e he => FileTree.add_of_error he
  | deletePath path recursive => exact onFiles_of_error fun e he => FileTree.delete_of_error he
  | changeMode path mode recursive =>
    exact onFiles_of_error fun e he => FileTree.changeMode_of_error he
  | changeOwner path owner recursive =>
    exact onFiles_of_error fun e he => FileTree.changeOwner_of_error he
  | changeTag path tag recursive => exact onFiles_of_error fun e he => FileTree.update_of_error he
  | _ => cases changes

theorem writeUnixFile_of_strandsFile {time path data encoding etag : String} {s : Machine}
    (h : (Call.writeUnixFile path data encoding etag).StrandsFile s.files) :
    invoke time (.writeUnixFile path data encoding etag) s =
      (.error (.etagMismatch (Path.ofText path).text etag (contentTag "")),
        { s with files := s.files.put (Path.ofText path) (.stranded s.user) }) := by
  obtain ⟨hroom, hexpected, hstale⟩ := h
  rw [invoke, FileTree.write_of_hasRoom data s.user hroom hexpected hstale]
  rfl

/-- A change of the file tree is refused and leaves a trace exactly when it is
a write that strands a file, and then the trace is that file, empty and owned
by the user. -/
theorem refused_file_change (time : String) (call : Call) (s : Machine)
    (changes : call.changesFiles = true) :
    ((∃ e, (invoke time call s).1 = .error e) ∧ (invoke time call s).2 ≠ s ↔
      call.StrandsFile s.files) ∧
    ∀ path data encoding etag, call = .writeUnixFile path data encoding etag →
      call.StrandsFile s.files →
      invoke time call s = (.error (.etagMismatch (Path.ofText path).text etag (contentTag "")),
        { s with files := s.files.put (Path.ofText path) (.stranded s.user) }) := by
  refine ⟨⟨?_, ?_⟩, ?_⟩
  · intro h
    refine Classical.byContradiction fun hkeeps => ?_
    exact refused_file_change_keeps changes hkeeps h
  · intro h
    cases call with
    | writeUnixFile path data encoding etag =>
      rw [writeUnixFile_of_strandsFile h]
      refine ⟨⟨_, rfl⟩, fun hsame => ?_⟩
      exact FileTree.put_ne _ h.1.1 (congrArg Machine.files hsame)
    | _ => cases h
  · rintro path data encoding etag rfl h
    exact writeUnixFile_of_strandsFile h

theorem refused_write_strands_file :
    (∃ e, (invoke "" (.writeUnixFile "/tmp/x" "X" "" "OLD") (initial "U")).1 = .error e) ∧
    (invoke "" (.writeUnixFile "/tmp/x" "X" "" "OLD") (initial "U")).2 ≠ initial "U" ∧
    (initial "U").files.content? ["tmp", "x"] = none ∧
    (invoke "" (.writeUnixFile "/tmp/x" "X" "" "OLD") (initial "U")).2.files.content?
      ["tmp", "x"] = some "" := by
  have hstrands : (Call.writeUnixFile "/tmp/x" "X" "" "OLD").StrandsFile
      (initial "U").files := by
    refine ⟨⟨rfl, _, rfl, rfl⟩, by decide, fun h => ?_⟩
    have hlength := length_contentTag ""
    rw [← h] at hlength
    exact absurd hlength (by decide)
  obtain ⟨hiff, htrace⟩ :=
    refused_file_change "" (.writeUnixFile "/tmp/x" "X" "" "OLD") (initial "U") rfl
  obtain ⟨hrefused, hchanged⟩ := hiff.2 hstrands
  refine ⟨hrefused, hchanged, rfl, ?_⟩
  rw [htrace _ _ _ _ rfl hstrands]
  rfl

end Machine

end MvsGateway.Host
