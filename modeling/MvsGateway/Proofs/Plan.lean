import MvsGateway.Plan
import MvsGateway.Proofs.Request.Servable

/-!
# Plans of servable requests

Every servable request has a plan. A request for a data set is planned by its
name in full, whether it is on a volume or not.
-/

namespace MvsGateway

open Host (Call)

namespace Request

variable {r : Request} {dsn : String}

/-! ## Plans for data sets -/

theorem dsn_of_isDataSet (h : r.target.IsDataSet) : ∃ dsn, r.target.dsn? = some dsn := by
  obtain ⟨name, hname⟩ := Option.isSome_iff_exists.1 h
  rw [Target.dsn?, hname]
  exact ⟨_, rfl⟩

theorem dsn_of_path {raw : String} (h : Target.ofDataSetPath raw = .ok r.target) :
    ∃ dsn, r.target.dsn? = some dsn := by
  have hends := Target.ofDataSetPath_ends raw
  rw [h] at hends
  exact dsn_of_isDataSet hends

theorem dsn_of_target (h : r.target.dsn? = some dsn) : r.dsn = .ok dsn := by
  rw [Request.dsn, h]

theorem planList_of_dsn (h : r.target.dsn? = some dsn) (whole : r.target.memberName? = none) :
    r.planList = .ok (.listMembers dsn) := by
  have hdsn := dsn_of_target h
  cases htarget : r.target with
  | dataSet | onVolume =>
    rw [htarget] at whole
    simp only [planList, htarget, hdsn, whole]
    rfl
  | member =>
    rw [htarget] at whole
    cases whole
  | _ =>
    rw [htarget] at h
    cases h

theorem planRead_of_dsn (h : r.target.dsn? = some dsn) :
    r.planRead = .ok (.readDataSet dsn (r.options.encoding.getD "")) := by
  have hdsn := dsn_of_target h
  cases htarget : r.target with
  | dataSet | member | onVolume =>
    simp only [planRead, htarget, hdsn]
    rfl
  | _ =>
    rw [htarget] at h
    cases h

theorem planWrite_of_dsn {data : String} (h : r.target.dsn? = some dsn)
    (hpayload : r.payload = .content data) :
    r.planWrite =
      .ok (.writeDataSet dsn data (r.options.encoding.getD "") (r.options.etag.getD "")) := by
  have hdsn := dsn_of_target h
  have hcontent : r.content = .ok data := by rw [content, hpayload]
  cases htarget : r.target with
  | dataSet | member | onVolume =>
    simp only [planWrite, htarget, hdsn, hcontent]
    rfl
  | _ =>
    rw [htarget] at h
    cases h

theorem planCreate_of_dsn (h : r.target.dsn? = some dsn) :
    r.planCreate = if r.target.memberName?.isSome then .ok (.createMember dsn)
      else match r.payload with
        | .allocation attributes => .ok (.createDataSet dsn attributes)
        | _ => .error r.unsupported := by
  have hdsn := dsn_of_target h
  cases htarget : r.target with
  | dataSet | member | onVolume =>
    simp only [planCreate, htarget, hdsn]
    rfl
  | _ =>
    rw [htarget] at h
    cases h

theorem planCreate_member (h : r.target.dsn? = some dsn) (inside : r.target.memberName?.isSome) :
    r.planCreate = .ok (.createMember dsn) := by
  rw [planCreate_of_dsn h, if_pos inside]

theorem planCreate_dataSet {attributes : Host.Attributes} (h : r.target.dsn? = some dsn)
    (whole : r.target.memberName? = none) (hpayload : r.payload = .allocation attributes) :
    r.planCreate = .ok (.createDataSet dsn attributes) := by
  rw [planCreate_of_dsn h, whole, hpayload]
  rfl

theorem planDelete_of_dsn (h : r.target.dsn? = some dsn) :
    r.planDelete = .ok (.deleteDataSet dsn) := by
  have hdsn := dsn_of_target h
  cases htarget : r.target with
  | dataSet | member | onVolume =>
    simp only [planDelete, htarget, hdsn]
    rfl
  | _ =>
    rw [htarget] at h
    cases h

/-! ## Plans -/

theorem planWrite_of_file {path data : String} (htarget : r.target = .file path)
    (hpayload : r.payload = .content data) :
    r.planWrite = .ok (.writeUnixFile path data (r.options.encoding.getD "")
      (r.options.etag.getD "")) := by
  rw [planWrite, htarget]
  show (do return Call.writeUnixFile _ (← r.content) _ _) = _
  rw [content, hpayload]
  rfl

section Content

variable {path data : String}

theorem plan_readDataSet (hverb : r.verb = .read) (h : r.target.dsn? = some dsn) :
    r.plan = .ok (.readDataSet dsn (r.options.encoding.getD "")) := by
  rw [plan, hverb]
  exact planRead_of_dsn h

theorem plan_writeDataSet (hverb : r.verb = .write) (h : r.target.dsn? = some dsn)
    (hpayload : r.payload = .content data) :
    r.plan = .ok (.writeDataSet dsn data (r.options.encoding.getD "")
      (r.options.etag.getD "")) := by
  rw [plan, hverb]
  exact planWrite_of_dsn h hpayload

theorem plan_readFile (hverb : r.verb = .read) (htarget : r.target = .file path) :
    r.plan = .ok (.readUnixFile path (r.options.encoding.getD "")) := by
  rw [plan, hverb]
  show r.planRead = _
  rw [planRead, htarget]

theorem plan_writeFile (hverb : r.verb = .write) (htarget : r.target = .file path)
    (hpayload : r.payload = .content data) :
    r.plan = .ok (.writeUnixFile path data (r.options.encoding.getD "")
      (r.options.etag.getD "")) := by
  rw [plan, hverb]
  exact planWrite_of_file htarget hpayload

end Content

/-- A servable request has a plan. -/
theorem plan_of_isServable {r : Request} (h : r.IsServable) : ∃ call, r.plan = .ok call := by
  obtain ⟨verb, target, options, payload, gaps⟩ := r
  cases h with
  | listMembers p named whole =>
    obtain ⟨dsn, hdsn⟩ := dsn_of_isDataSet named
    exact ⟨_, planList_of_dsn hdsn whole⟩
  | readDataSet p named =>
    obtain ⟨dsn, hdsn⟩ := dsn_of_isDataSet named
    exact ⟨_, planRead_of_dsn hdsn⟩
  | readSpoolFile ref key p => cases key <;> exact ⟨_, rfl⟩
  | writeDataSet data named =>
    obtain ⟨dsn, hdsn⟩ := dsn_of_isDataSet named
    exact ⟨_, planWrite_of_dsn hdsn rfl⟩
  | createMember p named inside =>
    obtain ⟨dsn, hdsn⟩ := dsn_of_isDataSet named
    exact ⟨_, planCreate_member hdsn inside⟩
  | createDataSet attributes named whole =>
    obtain ⟨dsn, hdsn⟩ := dsn_of_isDataSet named
    exact ⟨_, planCreate_dataSet hdsn whole rfl⟩
  | createEntry path kind mode => cases kind <;> exact ⟨_, rfl⟩
  | deleteDataSet p named =>
    obtain ⟨dsn, hdsn⟩ := dsn_of_isDataSet named
    exact ⟨_, planDelete_of_dsn hdsn⟩
  | submit source => cases source <;> exact ⟨_, rfl⟩
  | _ => exact ⟨_, rfl⟩

end Request

end MvsGateway
