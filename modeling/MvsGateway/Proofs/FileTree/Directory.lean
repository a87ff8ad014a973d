import Mathlib.Data.List.Sort
import MvsGateway.Proofs.ByteOrder
import MvsGateway.Proofs.FileTree.Attributes
import MvsGateway.Proofs.FileTree.Listing

/-!
# Directories

The host lists a directory by the names of the nodes right below it. In a table
of written paths these nodes do not stand together: a name that goes on with a
character below the slash comes before what is deeper in the tree. A scan finds
everything below the directory, though, and what it leaves behind the prefix is
a name if it has no further slash.
-/

namespace MvsGateway

theorem Text.after?_eq_some_iff {lead s rest : String} :
    after? lead s = some rest ↔ s = lead ++ rest := by
  unfold after?
  constructor
  · intro h
    split at h
    · rename_i hstarts
      obtain ⟨r, rfl⟩ := startsWith_iff.1 hstarts
      cases h
      simp
    · cases h
  · rintro rfl
    rw [if_pos (startsWith_iff.2 ⟨rest, rfl⟩)]
    simp

namespace Host

/-- A written path without a slash in it is a single segment. -/
theorem Path.eq_singleton {r : Path} (hr : r ≠ []) (hnormal : r.IsNormal)
    (hslash : '/' ∉ (Text.joinWith '/' r).toList) : r = [Text.joinWith '/' r] := by
  have hpieces : ∀ piece ∈ r.map String.toList, '/' ∉ piece := by
    intro piece hpiece
    obtain ⟨s, hs, rfl⟩ := List.mem_map.1 hpiece
    exact (hnormal s hs).whole
  have hsplit := Chars.splitAt_joinWith (by simpa using hr) hpieces
  rw [Text.joinWith, String.toList_ofList] at hslash
  rw [Chars.splitAt_of_not_mem hslash] at hsplit
  have hstrings := congrArg (List.map String.ofList) hsplit
  simpa [Text.joinWith, Function.comp_def] using hstrings.symm

namespace FileTree

variable {t : FileTree} {p : Path}

/-! ## Names by a scan -/

/-- What the scan of the texts below `p` leaves behind the prefix, where no
slash follows. -/
def scannedNames (t : FileTree) (p : Path) : List String :=
  ((t.textsBelow p).filterMap (Text.after? p.childPrefix)).filter fun name =>
    !Text.contains '/' name

theorem mem_scannedNames {name : String} :
    name ∈ t.scannedNames p ↔ p.childPrefix ++ name ∈ t.textsBelow p ∧ '/' ∉ name.toList := by
  rw [scannedNames, List.mem_filter, List.mem_filterMap]
  simp [Text.after?_eq_some_iff, Text.contains]

theorem WellFormed.textsBelow_ascending (h : t.WellFormed) (p : Path) :
    (t.textsBelow p).Pairwise (· < ·) := by
  rw [textsBelow, Text.scan_eq_filter h.texts_ascending]
  exact (h.texts_ascending.filter _).filter _

theorem WellFormed.scannedNames_ascending (h : t.WellFormed) (p : Path) :
    (t.scannedNames p).Pairwise (· < ·) := by
  rw [scannedNames]
  apply List.Pairwise.filter
  -- The names follow a common prefix, so that their order is that of the texts.
  apply List.Pairwise.filterMap _ _ (h.textsBelow_ascending p)
  intro s r hlt a ha b hb
  rw [Text.after?_eq_some_iff.1 ha, Text.after?_eq_some_iff.1 hb, String.lt_iff,
    String.toList_append, String.toList_append, Chars.append_lt_append_iff] at hlt
  exact String.lt_iff.2 hlt

theorem WellFormed.mem_scannedNames_iff (h : t.WellFormed) (hp : p.IsNormal) {name : String} :
    name ∈ t.scannedNames p ↔ ∃ node, t.nodes.get? (p ++ [name]) = some node := by
  rw [mem_scannedNames]
  constructor
  · rintro ⟨hbelow, hslash⟩
    obtain ⟨q, node, hq, htext⟩ : ∃ q node, t.nodes.get? q = some node ∧
        q.text = p.childPrefix ++ name := by
      rw [textsBelow, Text.scan_eq_filter h.texts_ascending] at hbelow
      exact mem_texts_iff.1 (List.mem_of_mem_filter (List.mem_of_mem_filter hbelow))
    rw [← htext, h.mem_textsBelow_iff hp hq] at hbelow
    obtain ⟨r, hr, rfl⟩ := Path.isBelow_iff.1 hbelow
    -- The name is the rest of the path, and without a slash a single segment.
    have hname : Text.joinWith '/' r = name := by
      rw [Path.text_append p hr, ← String.toList_inj] at htext
      rw [← String.toList_inj]
      simpa using htext
    have hnormal : Path.IsNormal r := fun s hs => h.isNormal hq s (List.mem_append_right p hs)
    have hsingle := Path.eq_singleton hr hnormal (by rw [hname]; exact hslash)
    rw [hname] at hsingle
    rw [hsingle] at hq
    exact ⟨node, hq⟩
  · rintro ⟨node, hq⟩
    have hparent : Path.parent? (p ++ [name]) = some p := Path.parent?_eq_some_iff.2 ⟨name, rfl⟩
    have htext := Path.text_of_parent? hparent
    rw [Path.name_append] at htext
    refine ⟨?_, (h.isNormal hq name (by simp)).whole⟩
    rw [← htext, h.mem_textsBelow_iff hp hq]
    exact Path.isBelow_of_parent? hparent

theorem WellFormed.scannedNames_eq (h : t.WellFormed) (hp : p.IsNormal) :
    t.scannedNames p = t.children p := by
  apply (h.scannedNames_ascending p).eq_of_mem_iff (children_ascending t p)
  intro name
  rw [h.mem_scannedNames_iff hp, mem_children_iff]

/-! ## The listing of a directory -/

theorem children_eq (t : FileTree) (p : Path) :
    t.children p = (t.nodes.keys.filter fun q => q.parent? = some p).map Path.name := by
  rw [children]
  congr 1
  apply List.filter_congr
  intro q _
  rw [Bool.eq_iff_iff, Path.isChild_iff, decide_eq_true_iff, Path.parent?_eq_some_iff]

/-- The names of the nodes whose parent is `p`, of each node once and in the
order of the bytes. A scan of the written paths finds the same names. -/
structure HoldsNames (t : FileTree) (p : Path) (names : List String) : Prop where
  nodes : names = (t.nodes.keys.filter fun q => q.parent? = some p).map Path.name
  mem_iff : ∀ name, name ∈ names ↔
    ∃ q node, t.nodes.get? q = some node ∧ q.parent? = some p ∧ q.name = name
  ascending : names.Pairwise fun a b => Utf8.encode a.toList < Utf8.encode b.toList
  scanned : names = t.scannedNames p

theorem WellFormed.holdsNames (h : t.WellFormed) (hp : p.IsNormal) :
    t.HoldsNames p (t.children p) := by
  constructor
  · exact t.children_eq p
  · intro name
    rw [mem_children_iff]
    constructor
    · rintro ⟨node, hq⟩
      exact ⟨p ++ [name], node, hq, Path.parent?_eq_some_iff.2 ⟨name, rfl⟩, Path.name_append p name⟩
    · rintro ⟨q, node, hq, hparent, rfl⟩
      obtain ⟨s, rfl⟩ := Path.parent?_eq_some_iff.1 hparent
      rw [Path.name_append]
      exact ⟨node, hq⟩
  · refine (children_ascending t p).imp ?_
    intro a b hlt
    exact Utf8.encode_lt_iff.2 (String.lt_iff.1 hlt)
  · exact (h.scannedNames_eq hp).symm

theorem list_eq_error_iff {path : String} :
    (∃ e, t.list path = .error e) ↔ t.nodes.get? (Path.ofText path) = none := by
  cases hnode : t.nodes.get? (Path.ofText path) with
  | none =>
    rw [list, find_of_absent hnode]
    exact iff_of_true ⟨_, rfl⟩ rfl
  | some node =>
    rw [list, find_of_node hnode]
    refine iff_of_false ?_ (Option.some_ne_none node)
    rintro ⟨e, he⟩
    cases he

/-- After any changes a directory is listed as two dots and the names of the
nodes whose parent it is. Only a path without a node is refused. -/
theorem directory_lists_its_nodes {user : String} (huser : Path.IsSegment user)
    (h : Reachable user t) (path : String) :
    (t.HasDirectory (Path.ofText path) → ∃ names,
      t.list path = .ok (".\n..\n" ++ String.join (names.map (· ++ "\n"))) ∧
      t.HoldsNames (Path.ofText path) names) ∧
    ((∃ e, t.list path = .error e) ↔ t.nodes.get? (Path.ofText path) = none) := by
  refine ⟨fun hdirectory => ?_, list_eq_error_iff⟩
  refine ⟨t.children (Path.ofText path), ?_,
    (h.wellFormed huser).holdsNames (Path.isNormal_ofText path)⟩
  rw [list_of_directory hdirectory]
  congr 1
  rw [← String.toList_inj, Reply.toList_listingText]
  simp [List.flatMap_map]

/-- The names of three neighbours stay in order, though what is deeper stands
between them in the order of the paths. The root is listed, too. -/
theorem neighbours_are_listed : Path.IsSegment "U" ∧ Reachable "U" neighbours ∧
    neighbours.HasDirectory ["tmp"] ∧ neighbours.HasDirectory .root ∧
    neighbours.list "//tmp/" = .ok ".\n..\nd\nd.x\nd0\n" ∧
    neighbours.list "/" = .ok ".\n..\ntmp\nu\n" ∧
    ∃ e, neighbours.list "/tmp/d/f/g" = .error e := by
  have huser : Path.IsSegment "U" := by constructor <;> decide
  have hreachable : Reachable "U" neighbours := Machine.files_reachable "U" Machine.neighbours
  have htmp : neighbours.HasDirectory ["tmp"] := ⟨_, rfl, rfl⟩
  have hroot : neighbours.HasDirectory .root := ⟨_, rfl, rfl⟩
  refine ⟨huser, hreachable, htmp, hroot, ?_, ?_, ?_⟩
  · obtain ⟨names, hlist, hnames⟩ := (directory_lists_its_nodes huser hreachable "//tmp/").1 htmp
    have hthree : names = ["d", "d.x", "d0"] := hnames.nodes.trans (by decide +kernel)
    rw [hlist, hthree]
    rfl
  · obtain ⟨names, hlist, hnames⟩ := (directory_lists_its_nodes huser hreachable "/").1 hroot
    have htwo : names = ["tmp", "u"] := hnames.nodes.trans (by decide +kernel)
    rw [hlist, htwo]
    rfl
  · exact (directory_lists_its_nodes huser hreachable "/tmp/d/f/g").2.2 rfl

end FileTree

end Host

end MvsGateway
