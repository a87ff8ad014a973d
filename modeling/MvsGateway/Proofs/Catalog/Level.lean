import MvsGateway.Proofs.Catalog.Representation
import MvsGateway.Proofs.Catalog.Search
import MvsGateway.Proofs.Envelope

/-!
# Listings by level

A client names a level of the catalog, and the host searches for a pattern
that goes on behind it. What is listed is the level itself and everything
below it, and the level may have wildcards of its own: some qualifiers at the
front of a name are what the level stands for.
-/

namespace MvsGateway

open Host (Machine Catalog DataSetEntry)

/-! ## Levels as patterns -/

namespace Host

namespace Pattern

/-- The name is in the level or below it. -/
def IsInLevel (level name : String) : Prop :=
  ∃ front, front <+: qualifiers name ∧ QualifiersMatch (qualifiers (Text.upper level)) front

theorem qualifiers_levelPattern (level : String) :
    qualifiers (Text.upper (Endpoint.levelPattern level)) =
      qualifiers (Text.upper level) ++ [anyQualifiers] := by
  rw [Endpoint.levelPattern, Text.upper_append, qualifiers, String.toList_append]
  exact Chars.splitAt_append '.' (Text.upper level).toList anyQualifiers

theorem accepts_levelPattern_iff {level name : String} (h : IsAscii name.toList) :
    accepts (Text.upper (Endpoint.levelPattern level)) name = true ↔ IsInLevel level name := by
  rw [accepts_iff h, qualifiers_levelPattern, qualifiersMatch_append_any_iff]
  rfl

/-- A level without wildcards holds its own name and those that go on behind a
dot. -/
theorem isInLevel_iff {level name : String} (hasterisk : '*' ∉ level.toList)
    (hpercent : '%' ∉ level.toList) :
    IsInLevel level name ↔
      name = Text.upper level ∨ ∃ rest, name = Text.upper level ++ "." ++ rest := by
  have hplain {c : Char} (hc : c.toNat < 65) (h : c ∉ level.toList) :
      ∀ q ∈ qualifiers (Text.upper level), c ∉ q := by
    intro q hq hmem
    have hupper := (Chars.of_mem_splitBy hq hmem).1
    rw [Text.toList_upper, Chars.mem_map_toUpper_iff hc] at hupper
    exact h hupper
  have hmatch (front : List (List Char)) :
      QualifiersMatch (qualifiers (Text.upper level)) front ↔
        front = qualifiers (Text.upper level) :=
    qualifiersMatch_iff_eq (hplain (by decide) hasterisk) (hplain (by decide) hpercent)
  simp only [IsInLevel, hmatch, exists_eq_right]
  rw [qualifiers, qualifiers, Chars.splitAt_prefix_iff, String.toList_inj]
  refine or_congr_right ⟨?_, ?_⟩
  · rintro ⟨rest, hrest⟩
    refine ⟨String.ofList rest, ?_⟩
    rw [← String.toList_inj, hrest]
    simp
  · rintro ⟨rest, rfl⟩
    exact ⟨rest.toList, by simp⟩

end Pattern

/-! ## The catalog's listing -/

namespace Catalog

/-- The names are those of the cataloged data sets in a level, each once and in
ascending order. -/
structure ListsLevel (c : Catalog) (level : String) (names : List String) : Prop where
  ascending : names.Pairwise (· < ·)
  mem_iff : ∀ name, name ∈ names ↔
    (∃ d, c.entries.get? name = some d) ∧ Pattern.IsInLevel level name
  plain : '*' ∉ level.toList → '%' ∉ level.toList → ∀ name, name ∈ names ↔
    (∃ d, c.entries.get? name = some d) ∧
      (name = Text.upper level ∨ ∃ rest, name = Text.upper level ++ "." ++ rest)

theorem listsLevel {c : Catalog} (h : c.IsCanonical) (level : String) :
    c.ListsLevel level
      (c.entries.keys.filter (Pattern.accepts (Text.upper (Endpoint.levelPattern level)))) := by
  have hmem : ∀ name,
      name ∈ c.entries.keys.filter (Pattern.accepts (Text.upper (Endpoint.levelPattern level))) ↔
        (∃ d, c.entries.get? name = some d) ∧ Pattern.IsInLevel level name := by
    intro name
    rw [List.mem_filter, Table.mem_keys_iff]
    refine and_congr_right ?_
    rintro ⟨d, hd⟩
    exact Pattern.accepts_levelPattern_iff (isAscii_of_nameFault? (h.name name d hd).1)
  refine ⟨c.entries.keys_ascending.filter _, hmem, fun hasterisk hpercent name => ?_⟩
  rw [hmem, Pattern.isInLevel_iff hasterisk hpercent]

end Catalog

end Host

/-! ## What a client sees -/

namespace Reply

/-- What an item of a collection shows as its name. -/
def itemName? (item : Json) : Option Json := item.asObject?.bind (·.get? "name")

/-- The reply is a collection of items with these names. -/
structure ShowsNames (reply : Reply) (names : List String) : Prop where
  status : reply.status = 200
  items : ∃ items, reply.body.get? "items" = some (.array items) ∧
    items.map itemName? = names.map fun name => some (.string name)
  rows : reply.body.get? "returnedRows" = some (Json.ofNat names.length)

theorem itemName?_dataSetItem (options : Options) (e : DataSetEntry) :
    itemName? (dataSetItem options e) = some (orEmpty e.name) := by
  unfold dataSetItem
  split
  · rfl
  · rfl

/-- A reply without a limit shows the names of all data sets that the host gives. -/
theorem list?_level {r : Request} {level : String} (htarget : r.target = .dataSetLevel level)
    (hlimit : r.options.maxEntries = none) {entries : List DataSetEntry} {names : List String}
    (hnames : entries.map (·.name) = names.map some) :
    ∃ reply, list? r (.dataSets entries) = some reply ∧ reply.ShowsNames names := by
  have hcollects := collects_collection r (entries.map (dataSetItem r.options))
    (some "no matching results found") isPlain_nil
  rw [List.append_nil] at hcollects
  have hlength : entries.length = names.length := by
    simpa using congrArg List.length hnames
  have hitems : (entries.map (dataSetItem r.options)).map itemName? =
      names.map fun name => some (.string name) := by
    have hshown := congrArg (List.map fun name => some (orEmpty name)) hnames
    simpa [List.map_map, Function.comp_def, itemName?_dataSetItem, orEmpty] using hshown
  unfold list?
  rw [htarget]
  refine ⟨_, rfl, rfl, ⟨_, ?_, hitems⟩, ?_⟩
  · rw [hcollects.items, Request.kept_of_no_limit hlimit]
  · rw [hcollects.rows, Request.kept_of_no_limit hlimit, List.length_map, hlength]

end Reply

/-- A list of a level without a limit shows the names of the data sets in it,
each once and in ascending order, after any run of calls. -/
theorem level_is_listed (user : String) (history : List (String × Host.Call)) (raw : String)
    (q : Query) (body : Body) {r : Request}
    (haccept : Endpoint.listDataSets.accept raw q body = .ok r)
    (hlimit : q.options.maxEntries = none) (time : String) (second : Int) :
    ∃ level reply names, q.nonEmpty? "dslevel" = some level ∧
      run (Machine.backend time) second (Endpoint.listDataSets.accept raw q body)
          ((Machine.initial user).after history) =
        (.ok reply, (Machine.initial user).after history) ∧
      reply.ShowsNames names ∧
      ((Machine.initial user).after history).catalog.ListsLevel level names := by
  obtain ⟨hverb, hoptions, level, hlevel, htarget⟩ := Endpoint.listDataSetsRequest_eq_ok haccept
  have hlists := Catalog.listsLevel (Machine.isCanonical_catalog user history) level
  generalize (Machine.initial user).after history = s at hlists ⊢
  have hplan : r.plan = .ok (.listDataSets (Endpoint.levelPattern level)) := by
    rw [Request.plan, hverb]
    show r.planList = _
    rw [Request.planList, htarget]
  have hinvoke : (Machine.backend time).invoke (.listDataSets (Endpoint.levelPattern level)) s =
      (.ok (.dataSets (s.catalog.list (Endpoint.levelPattern level))), s) := rfl
  rw [← hoptions] at hlimit
  obtain ⟨reply, hof, hshows⟩ := Reply.list?_level htarget hlimit (s.catalog.names_list _)
  refine ⟨level, reply, _, hlevel, ?_, hshows, hlists⟩
  rw [haccept]
  refine Request.reply_of_invoke hplan hinvoke ?_
  rw [Reply.build_eq_ok_iff, Reply.of?, hverb]
  exact hof

/-- Allocations of three data sets, of which the last is not below the first. -/
def Host.nearMiss : List (String × Host.Call) :=
  [("", .createDataSet "P.TEST" {}), ("", .createDataSet "P.TEST.A" {}),
    ("", .createDataSet "P.TESTX" {})]

theorem near_miss_is_not_listed :
    ∃ reply names,
      run (Machine.backend "") 0 (Endpoint.listDataSets.accept "" [("dslevel", "p.test")] [])
          ((Machine.initial "U").after Host.nearMiss) =
        (.ok reply, (Machine.initial "U").after Host.nearMiss) ∧
      reply.ShowsNames names ∧ "P.TEST" ∈ names ∧ "P.TEST.A" ∈ names ∧ "P.TESTX" ∉ names := by
  obtain ⟨level, reply, names, hlevel, hrun, hshows, hlists⟩ :=
    level_is_listed "U" Host.nearMiss "" [("dslevel", "p.test")] [] rfl rfl "" 0
  cases hlevel
  have hmem := hlists.plain (by decide) (by decide)
  refine ⟨reply, names, hrun, hshows, ?_, ?_, ?_⟩
  · exact (hmem "P.TEST").2 ⟨⟨_, rfl⟩, .inl rfl⟩
  · exact (hmem "P.TEST.A").2 ⟨⟨_, rfl⟩, .inr ⟨"A", rfl⟩⟩
  · rw [hmem]
    rintro ⟨_, hsame | ⟨rest, hbelow⟩⟩
    · exact absurd hsame (by decide)
    · have hchars := congrArg String.toList hbelow
      simp [Text.upper] at hchars

end MvsGateway
