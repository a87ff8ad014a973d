import MvsGateway.Proofs.Mode
import MvsGateway.Proofs.Plan
import MvsGateway.Proofs.Request.Accepted
import MvsGateway.Proofs.Request.JobResource

/-!
# Validated calls

What reaches the host has been looked at before. An endpoint takes the
arguments of a call from a path, the query or fields of any type, and each way
into a call leads through a check.
-/

namespace MvsGateway

open Host (Call)

/-! ## Checked arguments -/

/-- What holds of the arguments of a call, by the path and the query that they
come from. -/
def Host.Call.IsValidated (raw : String) (q : Query) : Call → Prop
  | .writeDataSet _ data _ _ | .writeUnixFile _ data _ _ => data ≠ ""
  | .createFile _ mode | .createDirectory _ mode | .changeMode _ mode _ => IsDigits mode
  | .submit jcl => ∃ c ∈ jcl.toList, Chars.isBlank c = false
  | .changeOwner _ owner _ => owner ≠ ""
  | .changeTag _ tag _ => tag ≠ ""
  | .readSpoolFile id key => ∃ (ref : JobRef) (text : String),
      ref.hostId = id ∧ Target.jobSegments raw = ref.segments ++ ["files", text, "records"] ∧
      Text.decimal? text = some key ∧ key < UInt32.size
  | .listDataSets pattern => ∃ level, q.nonEmpty? "dslevel" = some level ∧
      pattern = level ++ ".**" ∧ 1 ≤ level.toList.length ∧ level.toList.length ≤ 44
  | _ => True

/-- What holds of a payload before a request is made of it. -/
def Payload.IsFilled : Payload → Prop
  | .content text | .owner text | .tag text => text ≠ ""
  | .jcl (.inline text) => ∃ c ∈ text.toList, Chars.isBlank c = false
  | _ => True

/-! ## Texts of fields -/

theorem Binary64.text_ne_empty (x : Binary64) : x.text ≠ "" := by
  rw [ne_eq, ← String.toList_inj, text, String.toList_ofList]
  split
  · simp
  -- However the digits are laid out, there is a point or an exponent.
  · split
    · simp
    · simp only
      split
      · split
        · simp
        · split <;> simp
      · simp

theorem Json.Number.text_ne_empty (n : Json.Number) : n.text ≠ "" := by
  have hdecimal (n : Nat) : Text.decimal n ≠ "" := by
    intro h
    have hchars := congrArg String.toList h
    rw [Text.decimal, String.toList_ofList] at hchars
    exact Chars.decimal_ne_nil n hchars
  rcases n with (n | n) | x
  · exact hdecimal n
  · simp [text]
  · exact x.text_ne_empty

namespace Body

/-- A field has some text, whether it is a string or a number. -/
theorem ne_empty_of_textField? {fields : Json.Fields} {name text : String}
    (h : textField? fields name = some text) : text ≠ "" := by
  unfold textField? at h
  split at h
  · split at h
    · cases h
    · rename_i s hs
      cases h
      simpa using hs
  · cases h
    exact Json.Number.text_ne_empty _
  · cases h

theorem ne_empty_of_content {body : Body} {data : String} (h : body.content = .ok data) :
    data ≠ "" := by
  have hchecked (text : String)
      (h : (if text == "" then .error (.invalid .emptyBody) else .ok text) =
        (.ok data : Except RequestError String)) : data ≠ "" := by
    split at h
    · cases h
    · rename_i hdata
      cases h
      simpa using hdata
  unfold content at h
  split at h
  · split at h
    · obtain ⟨text, _, h⟩ := eq_ok_of_bind h
      exact hchecked text h
    · exact hchecked "" h
  · exact hchecked body.text h

end Body

/-! ## Checked requests -/

namespace Request

/-- The payload is filled, and the limit is that of the query if there is one. -/
structure IsChecked (r : Request) (q : Query) : Prop where
  payload : r.payload.IsFilled
  limit : r.options.maxEntries = none ∨ r.options.maxEntries = q.options.maxEntries

variable {r : Request} {q : Query}

theorem IsChecked.of_none (hpayload : r.payload = .none)
    (h : r.options.maxEntries = none ∨ r.options.maxEntries = q.options.maxEntries) :
    r.IsChecked q := by
  refine ⟨?_, h⟩
  rw [hpayload]
  trivial

theorem IsChecked.gapIf (h : r.IsChecked q) (given : Bool) (option : String) :
    (r.gapIf given option).IsChecked q := by
  constructor
  · rw [gapIf_payload]
    exact h.payload
  · rw [gapIf_options]
    exact h.limit

end Request

namespace Endpoint

variable {e : Endpoint} {raw : String} {q : Query} {body : Body} {r : Request}

theorem dataSetRequest_isChecked {verb : Verb} (h : dataSetRequest verb raw q = .ok r) :
    r.IsChecked q := by
  obtain ⟨target, _, ⟨⟩⟩ := eq_ok_of_bind h
  have hplain : Request.IsChecked { verb, target, options := q.options } q :=
    .of_none rfl (.inr rfl)
  exact hplain.gapIf _ _

theorem changeFileRequest_isChecked {fields : Json.Fields}
    (h : changeFileRequest raw q fields = .ok r) : r.IsChecked q := by
  unfold changeFileRequest at h
  simp only at h
  split at h
  · obtain ⟨text, _, h⟩ := eq_ok_of_bind h
    obtain ⟨mode, _, ⟨⟩⟩ := eq_ok_of_bind h
    exact ⟨trivial, .inr rfl⟩
  · obtain ⟨owner, howner, ⟨⟩⟩ := eq_ok_of_bind h
    exact ⟨Body.ne_empty_of_textField? (require_eq_ok_iff.1 howner), .inr rfl⟩
  · obtain ⟨tag, htag, ⟨⟩⟩ := eq_ok_of_bind h
    refine ⟨?_, .inr rfl⟩
    rcases Option.or_eq_some_iff.1 (require_eq_ok_iff.1 htag) with hfield | ⟨_, hfield⟩
    · exact Body.ne_empty_of_textField? hfield
    · exact Body.ne_empty_of_textField? hfield
  · cases h

theorem submitJobRequest_isChecked (h : submitJobRequest body = .ok r) : r.IsChecked q := by
  obtain ⟨source, hsource, ⟨⟩⟩ := eq_ok_of_bind h
  refine ⟨?_, .inl rfl⟩
  unfold jclSource at hsource
  split at hsource
  · split at hsource
    · cases hsource
      trivial
    · cases hsource
      trivial
    · cases hsource
  · split at hsource
    · cases hsource
    · rename_i hblank
      cases hsource
      simpa [Payload.IsFilled, Text.isBlank] using hblank

/-- What an endpoint accepts has a filled payload and the limit of its query. -/
theorem accept_isChecked (h : e.accept raw q body = .ok r) : r.IsChecked q := by
  have hwrite {data : String} (hdata : body.content = .ok data)
      (hpayload : r.payload = .content data) (hoptions : r.options = q.options) :
      r.IsChecked q := by
    constructor
    · rw [hpayload]
      exact Body.ne_empty_of_content hdata
    · rw [hoptions]
      exact .inr rfl
  cases e with
  | listDataSets =>
    obtain ⟨level, _, h⟩ := eq_ok_of_bind h
    split at h
    · cases h
    · cases h
      exact .gapIf (.gapIf (.of_none rfl (.inr rfl)) _ _) _ _
  | listMembers =>
    obtain ⟨request, hrequest, h⟩ := eq_ok_of_bind h
    split at h
    · cases h
    · cases h
      exact ((dataSetRequest_isChecked hrequest).gapIf _ _).gapIf _ _
  | readDataSet | deleteDataSet => exact dataSetRequest_isChecked h
  | writeDataSet =>
    obtain ⟨_, _, hoptions, data, hdata, hpayload⟩ := writeDataSetRequest_eq_ok h
    exact hwrite hdata hpayload hoptions
  | createDataSet =>
    obtain ⟨request, hrequest, h⟩ := eq_ok_of_bind h
    have hchecked := dataSetRequest_isChecked hrequest
    split at h
    · cases h
      exact hchecked
    · obtain ⟨attributes, _, ⟨⟩⟩ := eq_ok_of_bind h
      exact ⟨trivial, hchecked.limit⟩
  | listFiles =>
    obtain ⟨path, _, ⟨⟩⟩ := eq_ok_of_bind h
    exact .gapIf (.gapIf (.of_none rfl (.inr rfl)) _ _) _ _
  | readUnixFile =>
    cases h
    exact .gapIf (.of_none rfl (.inr rfl)) _ _
  | putFile =>
    rcases putFileRequest_cases h with h | ⟨fields, h⟩
    · obtain ⟨_, _, hoptions, data, hdata, hpayload⟩ := writeFileRequest_eq_ok h
      exact hwrite hdata hpayload hoptions
    · exact changeFileRequest_isChecked h
  | createFile =>
    obtain ⟨fields, _, h⟩ := eq_ok_of_bind h
    obtain ⟨kind, _, h⟩ := eq_ok_of_bind h
    simp only at h
    split at h
    · obtain ⟨mode, _, ⟨⟩⟩ := eq_ok_of_bind h
      exact ⟨trivial, .inr rfl⟩
    · cases h
      exact ⟨trivial, .inr rfl⟩
  | deleteFile =>
    cases h
    exact .of_none rfl (.inr rfl)
  | listJobs =>
    cases h
    exact .gapIf (.of_none rfl (.inr rfl)) _ _
  | getJob =>
    obtain ⟨target, _, h⟩ := eq_ok_of_bind h
    cases target with
    | job ref =>
      cases h
      exact .gapIf (.of_none rfl (.inr rfl)) _ _
    | _ =>
      cases h
      exact .of_none rfl (.inr rfl)
  | submitJob => exact submitJobRequest_isChecked h
  | deleteJob =>
    obtain ⟨target, _, h⟩ := eq_ok_of_bind h
    split at h
    · cases h
      exact .of_none rfl (.inl rfl)
    · cases h

/-! ## Checked targets -/

theorem level_of_accept {level : String} (h : e.accept raw q body = .ok r)
    (htarget : r.target = .dataSetLevel level) :
    q.nonEmpty? "dslevel" = some level ∧ level.toList.length ≤ maxLevel := by
  have hmade := accept_madeOf h
  rw [htarget] at hmade
  generalize hlevel : Target.dataSetLevel level = t, r.payload = p at hmade
  cases hmade with
  | level _ hgiven =>
    cases hlevel
    refine ⟨hgiven, ?_⟩
    obtain ⟨given, hsame, h⟩ := eq_ok_of_bind h
    rw [require_eq_ok_iff, hgiven] at hsame
    cases hsame
    split at h
    · cases h
    · rename_i hshort
      exact Nat.le_of_not_lt hshort
  | dataSet _ _ hpath =>
    have hnamed := Target.isDataSet_of_path hpath
    rw [← hlevel] at hnamed
    cases hnamed
  | job _ hpath =>
    have hjob := Target.isJob_of_path hpath
    rw [← hlevel] at hjob
    cases hjob
  | _ => cases hlevel

theorem spoolFile_of_accept {ref : JobRef} {key : FileKey} (h : e.accept raw q body = .ok r)
    (htarget : r.target = .spoolFile ref key) :
    Target.ofJobPath raw = .ok (.spoolFile ref key) := by
  have hmade := accept_madeOf h
  rw [htarget] at hmade
  generalize hfile : Target.spoolFile ref key = t, r.payload = p at hmade
  cases hmade with
  | job _ hpath => exact hpath
  | dataSet _ _ hpath =>
    have hnamed := Target.isDataSet_of_path hpath
    rw [← hfile] at hnamed
    cases hnamed
  | _ => cases hfile

/-- The key of a spool file is the value of a segment. -/
theorem key_of_spoolFile {ref : JobRef} {key : Nat}
    (h : Target.ofJobPath raw = .ok (.spoolFile ref (.number key))) :
    (Call.readSpoolFile ref.hostId key).IsValidated raw q := by
  obtain ⟨-, hnamed⟩ := Target.isNamedBy_of_ok h
  generalize hall : Target.jobSegments raw = segments at hnamed
  rcases hnamed with _ | _ | ⟨ref, hwritten⟩
  rcases hwritten with _ | ⟨zeros, digits, small⟩
  exact ⟨ref, _, rfl, hall, Chars.decimal?_eq_some_iff.2 ⟨zeros, digits⟩, small⟩

theorem pattern_of_level {level : String} (hgiven : q.nonEmpty? "dslevel" = some level)
    (hshort : level.toList.length ≤ maxLevel) :
    (Call.listDataSets (levelPattern level)).IsValidated raw q := by
  refine ⟨level, hgiven, rfl, ?_, hshort⟩
  have hsome := (Option.filter_eq_some_iff.1 hgiven).2
  have hne : level.toList ≠ [] := by simpa using hsome
  exact List.length_pos_iff.2 hne

/-! ## Checked calls -/

/-- The call that a servable request is planned by has the arguments of its
payload and its target. -/
theorem call_of_isServable (hservable : r.IsServable) (hfilled : r.payload.IsFilled)
    (hlevel : ∀ level, r.target = .dataSetLevel level →
      (Call.listDataSets (levelPattern level)).IsValidated raw q)
    (hfile : ∀ ref key, r.target = .spoolFile ref (.number key) →
      (Call.readSpoolFile ref.hostId key).IsValidated raw q) :
    ∃ call, r.plan = .ok call ∧ call.IsValidated raw q := by
  obtain ⟨verb, target, options, payload, gaps⟩ := r
  cases hservable with
  | listLevel level p => exact ⟨_, rfl, hlevel level rfl⟩
  | listMembers p named whole =>
    obtain ⟨dsn, hdsn⟩ := Request.dsn_of_isDataSet named
    exact ⟨_, Request.planList_of_dsn hdsn whole, trivial⟩
  | readDataSet p named =>
    obtain ⟨dsn, hdsn⟩ := Request.dsn_of_isDataSet named
    exact ⟨_, Request.planRead_of_dsn hdsn, trivial⟩
  | readSpoolFile ref key p =>
    cases key with
    | jcl => exact ⟨_, rfl, trivial⟩
    | number n => exact ⟨_, rfl, hfile ref n rfl⟩
  | writeDataSet data named =>
    obtain ⟨dsn, hdsn⟩ := Request.dsn_of_isDataSet named
    exact ⟨_, Request.planWrite_of_dsn hdsn rfl, hfilled⟩
  | writeFile path data => exact ⟨_, rfl, hfilled⟩
  | createMember p named inside =>
    obtain ⟨dsn, hdsn⟩ := Request.dsn_of_isDataSet named
    exact ⟨_, Request.planCreate_member hdsn inside, trivial⟩
  | createDataSet attributes named whole =>
    obtain ⟨dsn, hdsn⟩ := Request.dsn_of_isDataSet named
    exact ⟨_, Request.planCreate_dataSet hdsn whole rfl, trivial⟩
  | createEntry path kind mode => cases kind <;> exact ⟨_, rfl, mode.isDigits_text⟩
  | deleteDataSet p named =>
    obtain ⟨dsn, hdsn⟩ := Request.dsn_of_isDataSet named
    exact ⟨_, Request.planDelete_of_dsn hdsn, trivial⟩
  | changeMode path mode => exact ⟨_, rfl, mode.isDigits_text⟩
  | changeOwner path owner => exact ⟨_, rfl, hfilled⟩
  | changeTag path tag => exact ⟨_, rfl, hfilled⟩
  | submit source =>
    cases source with
    | inline jcl => exact ⟨_, rfl, hfilled⟩
    | _ => exact ⟨_, rfl, trivial⟩
  | _ => exact ⟨_, rfl, trivial⟩

/-- A limit of zero is none. -/
theorem limit_of_query (q : Query) {limit : Nat} (h : q.options.maxEntries = some limit) :
    1 ≤ limit := by
  obtain ⟨text, _, hlimit⟩ := Option.bind_eq_some_iff.1 h
  unfold Query.maxEntries? at hlimit
  split at hlimit
  · cases hlimit
  · cases hlimit
  · rename_i n hzero _
    cases hlimit
    have hmost : 0 < Query.maxCount := by decide
    have hpos : 0 < n := Nat.pos_of_ne_zero hzero
    omega

/-- The call of an accepted request is made of checked arguments, and its limit
leaves at least one item. -/
theorem accepted_calls_are_validated (e : Endpoint) (raw : String) (q : Query) (body : Body)
    {r : Request} (h : e.accept raw q body = .ok r) :
    (∃ call, r.plan = .ok call ∧ call.IsValidated raw q) ∧
      ∀ limit, r.options.maxEntries = some limit → 1 ≤ limit := by
  have hservable := isServable_of_accept h
  have hchecked : r.IsChecked q := accept_isChecked h
  constructor
  · refine call_of_isServable hservable hchecked.payload ?_ ?_
    · intro level htarget
      obtain ⟨hgiven, hshort⟩ := level_of_accept h htarget
      exact pattern_of_level hgiven hshort
    · intro ref key htarget
      exact key_of_spoolFile (spoolFile_of_accept h htarget)
  · intro limit hlimit
    rcases hchecked.limit with hnone | hsame
    · rw [hnone] at hlimit
      cases hlimit
    · rw [hsame] at hlimit
      exact limit_of_query q hlimit

/-- The body of a change of owner to the number zero. -/
def rootAsOwner : Body := Utf8.encodeString "\x7b\"request\": \"chown\", \"owner\": 0\x7d"

/-- The key of a spool file has zeros in front, and a limit of zero is none. A
number is an owner. -/
theorem numbers_are_validated :
    (∃ r, getJob.accept "J/files/007/records" [("max-entries", "0")] [] = .ok r ∧
      r.plan = .ok (.readSpoolFile "J" 7) ∧ 7 < UInt32.size ∧ r.options.maxEntries = none) ∧
    ∃ r, putFile.accept "u" [("max-entries", "5")] rootAsOwner = .ok r ∧
      r.plan = .ok (.changeOwner "/u" "0" false) ∧ "0" ≠ "" ∧
      ∃ limit, r.options.maxEntries = some limit ∧ 1 ≤ limit := by
  constructor
  · have haccept : getJob.accept "J/files/007/records" [("max-entries", "0")] [] =
        .ok { verb := .read, target := .spoolFile (.correlator "J") (.number 7) } :=
      eq_ok_of_toOption (by decide)
    obtain ⟨⟨call, hplan, hvalid⟩, _⟩ := accepted_calls_are_validated getJob _ _ _ haccept
    cases hplan
    obtain ⟨_, _, _, _, _, hsmall⟩ := hvalid
    exact ⟨_, haccept, rfl, hsmall, rfl⟩
  · have haccept : putFile.accept "u" [("max-entries", "5")] rootAsOwner =
        .ok { verb := .chown, target := .file "/u", options := { maxEntries := some 5 },
              payload := .owner "0" } :=
      eq_ok_of_toOption (by decide +kernel)
    obtain ⟨⟨call, hplan, hvalid⟩, hlimit⟩ := accepted_calls_are_validated putFile _ _ _ haccept
    cases hplan
    exact ⟨_, haccept, rfl, hvalid, 5, rfl, hlimit 5 rfl⟩

end Endpoint

end MvsGateway
