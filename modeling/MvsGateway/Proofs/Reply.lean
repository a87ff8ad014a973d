import MvsGateway.Host.Services
import MvsGateway.Reply
import MvsGateway.Proofs.Request.Servable

/-!
# Replies to planned requests

An output that fits the planned call has a reply that reports success. The
replies to reads of content show it, and those to writes and to reads of data
sets report its tag.
-/

namespace MvsGateway

open Host (Call Output contentTag)

namespace Reply

/-- There is a reply, and it reports success. -/
def Succeeds (reply : Option Reply) : Prop :=
  ∃ r, reply = some r ∧ (r.status = 200 ∨ r.status = 201)

theorem succeeds_ok (fields : List (String × Json)) : Succeeds (some (ok fields)) :=
  ⟨_, rfl, .inl rfl⟩

theorem succeeds_created (fields : List (String × Json)) : Succeeds (some (created fields)) :=
  ⟨_, rfl, .inr rfl⟩

variable {r : Request} {call : Call} {output : Output}

theorem list?_succeeds (hplan : r.planList = .ok call) (hfits : call.Fits output) :
    Succeeds (list? r output) := by
  unfold Request.planList at hplan
  unfold list?
  cases htarget : r.target with
  | dataSetLevel level =>
    rw [htarget] at hplan
    cases hplan
    cases output with
    | dataSets entries => exact succeeds_ok _
    | _ => cases hfits
  | dataSet | onVolume =>
    rw [htarget] at hplan
    simp only at hplan
    split at hplan
    · cases hplan
    · obtain ⟨dsn, _, ⟨⟩⟩ := eq_ok_of_bind hplan
      cases output with
      | members entries => exact succeeds_ok _
      | _ => cases hfits
  | directory path =>
    rw [htarget] at hplan
    cases hplan
    obtain ⟨listing, rfl⟩ := Output.eq_text hfits
    exact succeeds_ok _
  | jobOwner owner =>
    rw [htarget] at hplan
    cases hplan
    cases output with
    | jobs entries => exact succeeds_ok _
    | _ => cases hfits
  | spoolFiles ref =>
    rw [htarget] at hplan
    cases hplan
    cases output with
    | spoolFiles entries => exact succeeds_ok _
    | _ => cases hfits
  | _ =>
    rw [htarget] at hplan
    cases hplan

theorem read?_succeeds (second : Int) (hplan : r.planRead = .ok call) (hfits : call.Fits output) :
    Succeeds (read? second r output) := by
  unfold Request.planRead at hplan
  unfold read?
  cases htarget : r.target with
  | file path =>
    rw [htarget] at hplan
    cases hplan
    obtain ⟨content, rfl⟩ := Output.eq_text hfits
    exact succeeds_ok _
  | job ref =>
    rw [htarget] at hplan
    cases hplan
    cases output with
    | job entry => exact succeeds_ok _
    | _ => cases hfits
  | spoolFile ref key =>
    rw [htarget] at hplan
    have htext : ∃ content, output = .text content := by
      cases key with
      | jcl =>
        cases hplan
        exact Output.eq_text hfits
      | number n =>
        cases hplan
        exact Output.eq_text hfits
    obtain ⟨content, rfl⟩ := htext
    exact succeeds_ok _
  | _ =>
    rw [htarget] at hplan
    obtain ⟨dsn, _, ⟨⟩⟩ := eq_ok_of_bind hplan
    obtain ⟨content, rfl⟩ := Output.eq_text hfits
    exact succeeds_ok _

theorem write?_succeeds (hplan : r.planWrite = .ok call) (hfits : call.Fits output) :
    Succeeds (write? r output) := by
  have hetag : ∃ tag, output = .etag tag := by
    unfold Request.planWrite at hplan
    simp only at hplan
    split at hplan
    · obtain ⟨data, _, ⟨⟩⟩ := eq_ok_of_bind hplan
      exact Output.eq_etag hfits
    · obtain ⟨dsn, _, hdata⟩ := eq_ok_of_bind hplan
      obtain ⟨data, _, ⟨⟩⟩ := eq_ok_of_bind hdata
      exact Output.eq_etag hfits
  obtain ⟨tag, rfl⟩ := hetag
  unfold write?
  cases r.target <;> exact succeeds_ok _

theorem create?_succeeds (hplan : r.planCreate = .ok call) (hfits : call.Fits output) :
    Succeeds (create? r output) := by
  have hdone : output = .done := by
    unfold Request.planCreate at hplan
    split at hplan
    · split at hplan
      · cases hplan
        exact Output.eq_done hfits
      · cases hplan
        exact Output.eq_done hfits
      · cases hplan
    · split at hplan
      · obtain ⟨dsn, _, ⟨⟩⟩ := eq_ok_of_bind hplan
        exact Output.eq_done hfits
      · split at hplan
        · obtain ⟨dsn, _, ⟨⟩⟩ := eq_ok_of_bind hplan
          exact Output.eq_done hfits
        · cases hplan
  subst hdone
  unfold create?
  cases r.target <;> exact succeeds_created _

theorem delete?_succeeds (hplan : r.planDelete = .ok call) (hfits : call.Fits output) :
    Succeeds (delete? r output) := by
  have hdone : output = .done := by
    unfold Request.planDelete at hplan
    split at hplan
    · cases hplan
      exact Output.eq_done hfits
    · cases hplan
      exact Output.eq_done hfits
    · obtain ⟨dsn, _, ⟨⟩⟩ := eq_ok_of_bind hplan
      exact Output.eq_done hfits
  subst hdone
  unfold delete?
  cases r.target <;> exact succeeds_ok _

theorem change?_succeeds (hplan : r.planChange = .ok call) (hfits : call.Fits output) :
    Succeeds (change? r output) := by
  have hdone : (∃ path, r.target = .file path) ∧ output = .done := by
    unfold Request.planChange at hplan
    split at hplan
    · cases hplan
      exact ⟨⟨_, by assumption⟩, Output.eq_done hfits⟩
    · cases hplan
      exact ⟨⟨_, by assumption⟩, Output.eq_done hfits⟩
    · cases hplan
      exact ⟨⟨_, by assumption⟩, Output.eq_done hfits⟩
    · cases hplan
  obtain ⟨⟨path, htarget⟩, rfl⟩ := hdone
  unfold change?
  rw [htarget]
  exact succeeds_ok _

theorem submit?_succeeds (hplan : r.planSubmit = .ok call) (hfits : call.Fits output) :
    Succeeds (submit? output) := by
  have hid : ∃ id, output = .jobId id := by
    unfold Request.planSubmit at hplan
    split at hplan
    · cases hplan
      exact Output.eq_jobId hfits
    · cases hplan
      exact Output.eq_jobId hfits
    · cases hplan
      exact Output.eq_jobId hfits
    · cases hplan
    · cases hplan
  obtain ⟨id, rfl⟩ := hid
  exact succeeds_created _

theorem build_eq_ok_iff {second : Int} {reply : Reply} :
    build second r output = .ok reply ↔ of? second r output = some reply := by
  unfold build
  cases of? second r output <;> simp

/-- An output that fits the planned call has a reply that reports success. -/
theorem build_of_plan (second : Int) (hplan : r.plan = .ok call) (hfits : call.Fits output) :
    ∃ reply, build second r output = .ok reply ∧ (reply.status = 200 ∨ reply.status = 201) := by
  have hof : Succeeds (of? second r output) := by
    unfold Request.plan at hplan
    unfold of?
    cases hverb : r.verb <;> rw [hverb] at hplan
    case list => exact list?_succeeds hplan hfits
    case read => exact read?_succeeds second hplan hfits
    case write => exact write?_succeeds hplan hfits
    case create => exact create?_succeeds hplan hfits
    case delete => exact delete?_succeeds hplan hfits
    case submit => exact submit?_succeeds hplan hfits
    all_goals exact change?_succeeds hplan hfits
  obtain ⟨reply, hreply, hstatus⟩ := hof
  exact ⟨reply, build_eq_ok_iff.2 hreply, hstatus⟩

/-! ## Fields of replies -/

section Fields

variable {name : String}

theorem get?_warningField (h : name ≠ "warnings") (notes : List String) :
    (Json.Fields.ofList (warningField notes)).get? name = none := by
  apply Json.Fields.get?_ofList_eq_none
  unfold warningField
  split <;> simp [h]

theorem get?_contentFields (hrecords : name ≠ "records") (hformat : name ≠ "format")
    (options : Options) (content : String) :
    (Json.Fields.ofList (contentFields options content)).get? name = none := by
  apply Json.Fields.get?_ofList_eq_none
  unfold contentFields
  split <;> simp [hrecords, hformat]

theorem get?_messageField (h : name ≠ "message") (r : Request) (message : String) :
    (Json.Fields.ofList (messageField r message)).get? name = none := by
  apply Json.Fields.get?_ofList_eq_none
  unfold messageField
  split <;> simp [h]

end Fields

/-- A reply reports success and shows the content of what was read: as text,
or as the code points of the text where the caller asks for bytes. -/
structure Shows (reply : Reply) (options : Options) (content : String) : Prop where
  status : reply.status = 200
  text : options.bytesFormat = false → reply.body.get? "records" = some (.string content)
  bytes : options.bytesFormat = true → reply.body.get? "records" = some (codePoints content)

variable {r : Request} {reply : Reply}

/-- Whatever stands in front of the content, the reply shows it. -/
theorem shows_contentFields (r : Request) (fields : List (String × Json)) (content : String) :
    (ok (fields ++ contentFields r.options content ++ gapField r)).Shows r.options content := by
  have hrecords : (ok (fields ++ contentFields r.options content ++ gapField r)).body.get?
      "records" = ((Json.Fields.ofList (contentFields r.options content)).get? "records").or
        ((Json.Fields.ofList fields).get? "records") := by
    show (Json.Fields.ofList _).get? "records" = _
    rw [Json.Fields.get?_ofList_append, Json.Fields.get?_ofList_append, gapField,
      get?_warningField (by decide)]
    rfl
  refine ⟨rfl, fun htext => ?_, fun hbytes => ?_⟩
  · rw [hrecords, contentFields, htext]
    rfl
  · rw [hrecords, contentFields, hbytes]
    rfl

/-! ## Reads and writes of content -/

theorem read?_dataSet {dsn : String} (second : Int) (content : String)
    (h : r.target.dsn? = some dsn) :
    read? second r (.text content) = some (ok (dataSetFields r.target ++
      (if r.options.returnEtag then [("etag", .string (contentTag content))] else []) ++
      contentFields r.options content ++ gapField r)) := by
  unfold read?
  cases htarget : r.target with
  | file | spoolFile =>
    rw [htarget] at h
    cases h
  | _ => rfl

theorem read?_dataSet_shows {dsn : String} (second : Int) (content : String)
    (h : r.target.dsn? = some dsn) :
    ∃ reply, read? second r (.text content) = some reply ∧ reply.Shows r.options content :=
  ⟨_, read?_dataSet second content h, shows_contentFields r _ content⟩

theorem read?_file_shows {path : String} (second : Int) (content : String)
    (h : r.target = .file path) :
    ∃ reply, read? second r (.text content) = some reply ∧ reply.Shows r.options content := by
  unfold read?
  rw [h]
  exact ⟨_, rfl, shows_contentFields r _ content⟩

/-- The reply to a write, whatever it says in front of the tag. -/
theorem write?_etag (r : Request) (tag : String) :
    ∃ fields message, write? r (.etag tag) = some (ok (fields ++
      [("etag", .string (writtenTag r tag))] ++ messageField r message ++ gapField r)) := by
  unfold write?
  cases r.target with
  | file path => exact ⟨[success, ("filePath", .string path)], _, rfl⟩
  | _ => exact ⟨_, _, rfl⟩

theorem write?_status {output : Output} (h : write? r output = some reply) :
    reply.status = 200 := by
  unfold write? at h
  split at h
  · rw [← Option.some.inj h]
    rfl
  · rw [← Option.some.inj h]
    rfl
  · cases h

/-- A read of a data set reports the tag of what it found, if a tag is wanted. -/
theorem etag?_read {dsn content : String} {second : Int} (h : r.target.dsn? = some dsn)
    (wanted : r.options.returnEtag = true) (hreply : read? second r (.text content) = some reply) :
    reply.body.get? "etag" = some (.string (contentTag content)) := by
  rw [read?_dataSet second content h, wanted] at hreply
  rw [← Option.some.inj hreply]
  show (Json.Fields.ofList _).get? "etag" = _
  rw [Json.Fields.get?_ofList_append, Json.Fields.get?_ofList_append,
    Json.Fields.get?_ofList_append, gapField, get?_warningField (by decide),
    get?_contentFields (by decide) (by decide)]
  rfl

/-- A write reports the host's tag. -/
theorem etag?_write {tag : String} (htag : tag ≠ "") (hreply : write? r (.etag tag) = some reply) :
    reply.body.get? "etag" = some (.string tag) := by
  have hwritten : writtenTag r tag = tag := by
    unfold writtenTag
    split
    · exact if_neg (by simpa using htag)
    · rfl
  obtain ⟨fields, message, hwrite⟩ := write?_etag r tag
  rw [hwrite] at hreply
  rw [← Option.some.inj hreply]
  -- What stands behind the tag is of other names, whatever stands in front.
  show (Json.Fields.ofList _).get? "etag" = _
  rw [Json.Fields.get?_ofList_append, Json.Fields.get?_ofList_append,
    Json.Fields.get?_ofList_append, gapField, get?_warningField (by decide),
    get?_messageField (by decide), hwritten]
  rfl

end Reply

end MvsGateway
