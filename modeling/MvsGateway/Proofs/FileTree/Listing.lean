import MvsGateway.Proofs.ByteOrder
import MvsGateway.Proofs.Envelope
import MvsGateway.Proofs.FileTree.WellFormed

/-!
# Listings

The host lists a directory as a text with a name on each line, and the service
reads the names back from the text: line by line and without outer white
space, unless the text is JSON. The names of a directory are therefore shown
as they are exactly if none of them has a line feed in it or white space at an
end. A file is listed by its own name alone, which may even be JSON.
-/

namespace MvsGateway

open Host (Machine Path FileTree)

namespace Reply

/-! ## Names in a listing -/

/-- A name that is read back from a line of its own. -/
structure IsTidy (name : String) : Prop where
  oneLine : '\n' ∉ name.toList
  trimmed : Chars.trim name.toList = name.toList
  nonEmpty : name.toList ≠ []

/-- What is shown for a name: its lines, trimmed, without those that are
blank. -/
def shownNames (name : String) : List (List Char) :=
  ((Chars.lines (name.toList ++ ['\n'])).map Chars.trim).filter (!·.isEmpty)

theorem isTidy_of_mem_shownNames {name : String} {line : List Char} (h : line ∈ shownNames name) :
    IsTidy (String.ofList line) := by
  obtain ⟨hmem, hne⟩ := List.mem_filter.1 h
  obtain ⟨whole, hwhole, rfl⟩ := List.mem_map.1 hmem
  constructor
  · rw [String.toList_ofList]
    exact fun hfeed => Chars.feed_not_mem_of_mem_lines hwhole (Chars.mem_of_mem_trim hfeed)
  · rw [String.toList_ofList, Chars.trim_trim]
  · rw [String.toList_ofList]
    simpa using hne

theorem IsTidy.shownNames_eq {name : String} (h : IsTidy name) :
    shownNames name = [name.toList] := by
  have hreturn : name.toList.getLast? ≠ some '\r' := by
    intro hlast
    rw [← h.trimmed] at hlast
    exact absurd ((Chars.isBlank_ends_trim name.toList).2 '\r' hlast) (by decide)
  rw [shownNames, Chars.lines_of_not_mem h.oneLine hreturn, List.map_singleton, h.trimmed]
  simp [h.nonEmpty]

/-- All names are shown as they are exactly if each of them is tidy. -/
theorem flatMap_shownNames_eq_iff (names : List String) :
    names.flatMap shownNames = names.map String.toList ↔ ∀ name ∈ names, IsTidy name := by
  constructor
  · intro h name hname
    have hmem : name.toList ∈ names.flatMap shownNames := by
      rw [h]
      exact List.mem_map.2 ⟨name, hname, rfl⟩
    obtain ⟨other, _, hshown⟩ := List.mem_flatMap.1 hmem
    have htidy := isTidy_of_mem_shownNames hshown
    rwa [String.ofList_toList] at htidy
  · intro h
    induction names with
    | nil => rfl
    | cons name names ih =>
      rw [List.flatMap_cons, (h name List.mem_cons_self).shownNames_eq,
        ih fun other hother => h other (List.mem_cons_of_mem name hother)]
      rfl

/-! ## Items of a listing -/

/-- The text with a name on each line. -/
def listingText (names : List String) : String := String.join (names.map (· ++ "\n"))

theorem toList_listingText (names : List String) :
    (listingText names).toList = names.flatMap fun name => name.toList ++ ['\n'] := by
  rw [listingText, String.toList_join, List.flatMap_map]
  simp

theorem lines_listingText (names : List String) :
    Chars.lines (listingText names).toList =
      names.flatMap fun name => Chars.lines (name.toList ++ ['\n']) := by
  rw [toList_listingText]
  induction names with
  | nil => rfl
  | cons name names ih =>
    rw [List.flatMap_cons, List.flatMap_cons, List.append_assoc, List.singleton_append,
      Chars.lines_append, ih]

/-- The text is a JSON array or object. -/
def IsJsonListing (text : String) : Prop :=
  (∃ items, Json.read? text = some (.array items)) ∨
    ∃ fields, Json.read? text = some (.object fields)

theorem listingItems_listingText {names : List String} (h : ¬IsJsonListing (listingText names)) :
    listingItems (listingText names) = (names.flatMap shownNames).map nameItem := by
  unfold listingItems
  split
  · rename_i items hread
    exact absurd (.inl ⟨items, hread⟩) h
  · rename_i fields hread
    exact absurd (.inr ⟨fields, hread⟩) h
  · rw [lines_listingText, List.map_flatMap, List.filter_flatMap]
    rfl

/-- An item shows its name. -/
theorem nameItem_injective {m n : List Char} (h : nameItem m = nameItem n) : m = n := by
  have hname : ∀ name, (nameItem name).asObject?.bind (·.get? "name") =
    some (.string (String.ofList name)) := fun _ => rfl
  have hsame := congrArg (fun item => item.asObject?.bind (·.get? "name")) h
  simp only [hname, Option.some.injEq, Json.string.injEq] at hsame
  rw [← String.toList_ofList (l := m), hsame, String.toList_ofList]

theorem not_isJsonListing {text : String} (h : Json.read? text = none) : ¬IsJsonListing text := by
  rintro (⟨items, hitems⟩ | ⟨fields, hfields⟩)
  · rw [h] at hitems
    cases hitems
  · rw [h] at hfields
    cases hfields

/-- No value starts with a dot, so that a directory is never taken for JSON. -/
theorem not_isJsonListing_dot (names : List String) :
    ¬IsJsonListing (listingText ("." :: names)) := by
  apply not_isJsonListing
  rw [Json.read?, toList_listingText]
  rfl

end Reply

/-! ## The host's listing -/

namespace Host

namespace Path

theorem isChild_iff {p q : Path} : p.isChild q = true ↔ ∃ s, q = p ++ [s] := by
  simp only [isChild, Bool.and_eq_true, List.isPrefixOf_iff_prefix, beq_iff_eq]
  constructor
  · rintro ⟨⟨r, rfl⟩, hlength⟩
    rw [List.length_append, Nat.add_left_cancel_iff, List.length_eq_one_iff] at hlength
    obtain ⟨s, rfl⟩ := hlength
    exact ⟨s, rfl⟩
  · rintro ⟨s, rfl⟩
    exact ⟨List.prefix_append p [s], by simp⟩

theorem name_append (p : Path) (s : String) : name (p ++ [s]) = s := by
  simp [name]

theorem append_lt_append_iff {p : Path} {s r : String} : p ++ [s] < p ++ [r] ↔ s < r := by
  rw [Chars.append_lt_append_iff, List.cons_lt_cons_iff]
  simp

end Path

namespace FileTree

variable {t : FileTree} {p : Path}

/-- The names in a directory are those of the nodes one segment below it. -/
theorem mem_children_iff {s : String} :
    s ∈ t.children p ↔ ∃ node, t.nodes.get? (p ++ [s]) = some node := by
  unfold children
  rw [← Table.mem_keys_iff, List.mem_map]
  constructor
  · rintro ⟨q, hq, rfl⟩
    obtain ⟨hkey, hchild⟩ := List.mem_filter.1 hq
    obtain ⟨s, rfl⟩ := Path.isChild_iff.1 hchild
    rwa [Path.name_append]
  · intro hkey
    exact ⟨p ++ [s], List.mem_filter.2 ⟨hkey, Path.isChild_iff.2 ⟨s, rfl⟩⟩, Path.name_append p s⟩

theorem children_ascending (t : FileTree) (p : Path) : (t.children p).Pairwise (· < ·) := by
  unfold children
  rw [List.pairwise_map]
  refine (t.nodes.keys_ascending.filter _).imp_of_mem ?_
  intro q r hq hr hlt
  obtain ⟨s, rfl⟩ := Path.isChild_iff.1 (List.mem_filter.1 hq).2
  obtain ⟨u, rfl⟩ := Path.isChild_iff.1 (List.mem_filter.1 hr).2
  rw [Path.name_append, Path.name_append]
  exact Path.append_lt_append_iff.1 hlt

theorem list_of_directory {path : String} (h : t.HasDirectory (Path.ofText path)) :
    t.list path = .ok (Reply.listingText ("." :: ".." :: t.children (Path.ofText path))) := by
  obtain ⟨node, hnode, hkind⟩ := h
  rw [list, find_of_node hnode]
  simp [bind, Except.bind, hkind, Reply.listingText]

theorem list_of_file {path content : String} (h : t.content? (Path.ofText path) = some content) :
    t.list path = .ok (Reply.listingText [(Path.ofText path).name]) := by
  obtain ⟨node, hnode, hkind⟩ := content?_eq_some_iff.1 h
  rw [list, find_of_node hnode]
  simp [bind, Except.bind, Node.isDirectory, hkind, Reply.listingText]

end FileTree

end Host

/-! ## The service's listing -/

namespace Reply

/-- The items of a reply to a request without a limit are those of the listing. -/
theorem list?_directory {r : Request} {path : String} (htarget : r.target = .directory path)
    (hlimit : r.options.maxEntries = none) (listing : String) :
    ∃ reply, list? r (.text listing) = some reply ∧ reply.status = 200 ∧
      reply.body.get? "items" = some (.array (listingItems listing)) := by
  have hback : IsPlain [("path", .string path),
      ("format", .string (if r.options.longFormat then "long" else "short")),
      ("showHidden", .bool r.options.showHidden)] := by
    simp [envelopeNames]
  have hitems := (collects_collection r (listingItems listing) none hback).items
  rw [Request.kept_of_no_limit hlimit] at hitems
  unfold list?
  rw [htarget]
  exact ⟨_, rfl, rfl, hitems⟩

end Reply

namespace Endpoint

variable {q : Query} {s : Machine} {path listing : String}

theorem listFilesRequest_of_path (hpath : q.path = .ok path) :
    ∃ r, listFilesRequest q = .ok r ∧ r.verb = .list ∧ r.target = .directory path ∧
      r.options = q.options := by
  rw [listFilesRequest, hpath]
  refine ⟨_, rfl, ?_, ?_, ?_⟩
  · rw [Request.gapIf_verb, Request.gapIf_verb]
  · rw [Request.gapIf_target, Request.gapIf_target]
  · rw [Request.gapIf_options, Request.gapIf_options]

/-- A list of a path without a limit shows the items of the host's listing. -/
theorem listFiles_shows (time : String) (second : Int) (raw : String) (body : Body)
    (hpath : q.path = .ok path) (hlimit : q.options.maxEntries = none)
    (hlist : s.files.list path = .ok listing) :
    ∃ reply, run (Machine.backend time) second (listFiles.accept raw q body) s = (.ok reply, s) ∧
      reply.status = 200 ∧
      reply.body.get? "items" = some (.array (Reply.listingItems listing)) := by
  obtain ⟨r, haccept, hverb, htarget, hoptions⟩ := listFilesRequest_of_path hpath
  rw [← hoptions] at hlimit
  have hplan : r.plan = .ok (.listDirectory path) := by
    rw [Request.plan, hverb]
    show r.planList = _
    rw [Request.planList, htarget]
  have hinvoke : (Machine.backend time).invoke (.listDirectory path) s =
      (.ok (.text listing), s) := by
    rw [Machine.backend_invoke, Machine.invoke, hlist]
    rfl
  obtain ⟨reply, hof, hstatus, hitems⟩ := Reply.list?_directory htarget hlimit listing
  refine ⟨reply, ?_, hstatus, hitems⟩
  show run _ _ (listFilesRequest q) s = _
  rw [haccept]
  refine Request.reply_of_invoke hplan hinvoke ?_
  rw [Reply.build_eq_ok_iff, Reply.of?, hverb]
  exact hof

end Endpoint

/-! ## What a client sees -/

namespace Reply

/-- The items of a listing of a directory. The children are the names of the
nodes right below it, each once and in order. They are shown as they are
exactly if all of them are tidy. -/
structure ListsDirectory (t : FileTree) (p : Path) (items : List Json) : Prop where
  children : ∀ name, name ∈ t.children p ↔ ∃ node, t.nodes.get? (p ++ [name]) = some node
  ascending : (t.children p).Pairwise (· < ·)
  shown : items = (("." :: ".." :: t.children p).flatMap shownNames).map nameItem
  exact_iff : items = ("." :: ".." :: t.children p).map (fun name => nameItem name.toList) ↔
    ∀ name ∈ t.children p, IsTidy name

/-- The items of a listing of a file: its own name, unless that is JSON. -/
structure ListsFile (name : String) (items : List Json) : Prop where
  array : ∀ inner, Json.read? (name ++ "\n") = some (.array inner) → items = inner
  object : ∀ fields, Json.read? (name ++ "\n") = some (.object fields) → items = [.object fields]
  shown : ¬IsJsonListing (name ++ "\n") → items = (shownNames name).map nameItem
  exact_iff : ¬IsJsonListing (name ++ "\n") → (items = [nameItem name.toList] ↔ IsTidy name)

theorem isTidy_dots : IsTidy "." ∧ IsTidy ".." :=
  ⟨⟨by decide, by decide, by decide⟩, ⟨by decide, by decide, by decide⟩⟩

theorem map_nameItem_eq_iff (names : List String) :
    (names.flatMap shownNames).map nameItem = names.map (fun name => nameItem name.toList) ↔
      ∀ name ∈ names, IsTidy name := by
  have hmap : names.map (fun name => nameItem name.toList) =
      (names.map String.toList).map nameItem := by
    rw [List.map_map]
    rfl
  rw [hmap, ← flatMap_shownNames_eq_iff]
  exact List.map_inj_right fun _ _ => nameItem_injective

theorem listsDirectory (t : FileTree) (p : Path) :
    ListsDirectory t p (listingItems (listingText ("." :: ".." :: t.children p))) := by
  have hitems := listingItems_listingText (not_isJsonListing_dot (".." :: t.children p))
  refine ⟨fun _ => FileTree.mem_children_iff, FileTree.children_ascending t p, hitems, ?_⟩
  rw [hitems, map_nameItem_eq_iff, List.forall_mem_cons, List.forall_mem_cons]
  exact ⟨fun h => h.2.2, fun h => ⟨isTidy_dots.1, isTidy_dots.2, h⟩⟩

theorem listsFile (name : String) : ListsFile name (listingItems (listingText [name])) := by
  have htext : listingText [name] = name ++ "\n" := by
    rw [← String.toList_inj, toList_listingText]
    simp
  have hshown : ¬IsJsonListing (name ++ "\n") →
      listingItems (listingText [name]) = ([name].flatMap shownNames).map nameItem := by
    intro h
    rw [← htext] at h
    exact listingItems_listingText h
  constructor
  · intro inner hread
    rw [htext, listingItems, hread]
  · intro fields hread
    rw [htext, listingItems, hread]
  · intro h
    rw [hshown h, List.flatMap_singleton]
  · intro h
    have hexact := map_nameItem_eq_iff [name]
    rw [List.map_singleton, List.forall_mem_singleton] at hexact
    rw [hshown h]
    exact hexact

end Reply

/-- A list of a path without a limit shows the names in a directory, each once
and in order, and for a file its own name. -/
theorem listing_shows_names (s : Machine) {q : Query} {path : String} (hpath : q.path = .ok path)
    (hlimit : q.options.maxEntries = none) (time : String) (second : Int) (raw : String)
    (body : Body) :
    (s.files.HasDirectory (Path.ofText path) →
      ∃ reply items,
        run (Machine.backend time) second (Http.accepted .files .listFiles raw q body) s =
          (.ok reply, s) ∧
        reply.status = 200 ∧ reply.body.get? "items" = some (.array items) ∧
        Reply.ListsDirectory s.files (Path.ofText path) items) ∧
    ∀ content, s.files.content? (Path.ofText path) = some content →
      ∃ reply items,
        run (Machine.backend time) second (Http.accepted .files .listFiles raw q body) s =
          (.ok reply, s) ∧
        reply.status = 200 ∧ reply.body.get? "items" = some (.array items) ∧
        Reply.ListsFile (Path.ofText path).name items := by
  constructor
  · intro hdirectory
    obtain ⟨reply, hrun, hstatus, hitems⟩ := Endpoint.listFiles_shows time second raw body hpath
      hlimit (FileTree.list_of_directory hdirectory)
    exact ⟨reply, _, hrun, hstatus, hitems, Reply.listsDirectory s.files (Path.ofText path)⟩
  · intro content hcontent
    obtain ⟨reply, hrun, hstatus, hitems⟩ := Endpoint.listFiles_shows time second raw body hpath
      hlimit (FileTree.list_of_file hcontent)
    exact ⟨reply, _, hrun, hstatus, hitems, Reply.listsFile (Path.ofText path).name⟩

/-- A machine with a file `x` in `/tmp`. -/
def Host.Machine.withFile : Machine :=
  (Machine.initial "U").after [("", .writeUnixFile "/tmp/x" "X" "" "")]

/-- A machine with a file in `/tmp` whose name starts with a space. -/
def Host.Machine.withSpacedFile : Machine :=
  (Machine.initial "U").after [("", .writeUnixFile "/tmp/ a" "X" "" "")]

theorem tidy_names_are_shown :
    (∃ reply, run (Machine.backend "") 0
        (Http.accepted .files .listFiles "" [("path", "/tmp")] []) Machine.withFile =
          (.ok reply, Machine.withFile) ∧
      reply.body.get? "items" =
        some (.array ([".", "..", "x"].map fun name => Reply.nameItem name.toList))) ∧
    ∃ reply, run (Machine.backend "") 0
        (Http.accepted .files .listFiles "" [("path", "/tmp//x")] []) Machine.withFile =
          (.ok reply, Machine.withFile) ∧
      reply.body.get? "items" = some (.array [Reply.nameItem ['x']]) := by
  have htidy : Reply.IsTidy "x" := ⟨by decide, by decide, by decide⟩
  constructor
  · obtain ⟨hlist, _⟩ := listing_shows_names Machine.withFile (q := [("path", "/tmp")]) rfl rfl
      "" 0 "" []
    obtain ⟨reply, items, hrun, _, hitems, hlists⟩ := hlist ⟨_, rfl, rfl⟩
    have hchildren : Machine.withFile.files.children (Path.ofText "/tmp") = ["x"] := by
      decide +kernel
    have hexact := hlists.exact_iff
    rw [hchildren] at hexact
    rw [hexact.2 (List.forall_mem_singleton.2 htidy)] at hitems
    exact ⟨reply, hrun, hitems⟩
  · obtain ⟨_, hlist⟩ := listing_shows_names Machine.withFile (q := [("path", "/tmp//x")]) rfl rfl
      "" 0 "" []
    obtain ⟨reply, items, hrun, _, hitems, hlists⟩ := hlist "X" rfl
    rw [(hlists.exact_iff (Reply.not_isJsonListing rfl)).2 htidy] at hitems
    exact ⟨reply, hrun, hitems⟩

/-- The space is lost on the way. -/
theorem spaced_name_is_trimmed :
    Machine.withSpacedFile.files.children (Path.ofText "/tmp") = [" a"] ∧
    ∃ reply, run (Machine.backend "") 0
        (Http.accepted .files .listFiles "" [("path", "/tmp")] []) Machine.withSpacedFile =
          (.ok reply, Machine.withSpacedFile) ∧
      reply.body.get? "items" =
        some (.array ([".", "..", "a"].map fun name => Reply.nameItem name.toList)) := by
  have hchildren : Machine.withSpacedFile.files.children (Path.ofText "/tmp") = [" a"] := by
    decide +kernel
  obtain ⟨reply, hrun, _, hitems⟩ := Endpoint.listFiles_shows (s := Machine.withSpacedFile)
    (q := [("path", "/tmp")]) "" 0 "" [] rfl rfl (FileTree.list_of_directory ⟨_, rfl, rfl⟩)
  rw [(Reply.listsDirectory _ _).shown, hchildren] at hitems
  exact ⟨hchildren, reply, hrun, hitems⟩

end MvsGateway
