import MvsGateway.Host.Machine
import MvsGateway.Proofs.CanonicalPath
import MvsGateway.Proofs.Plan
import MvsGateway.Proofs.Request.Accepted

/-!
# What calls hand over

A call names the data set or the file that its request names, in its target or
as the source of a job. Every endpoint makes the path of a file absolute, but
for the listing, which hands over the path as the client wrote it.
-/

namespace MvsGateway

open Host (Call)

/-- The data set that a call names. -/
def Host.Call.dsn? : Call → Option String
  | .listMembers dsn | .readDataSet dsn _ | .writeDataSet dsn _ _ _ | .createMember dsn
  | .createDataSet dsn _ | .deleteDataSet dsn | .submitDataSet dsn => some dsn
  | _ => none

/-- The file or directory that a call names. -/
def Host.Call.path? : Call → Option String
  | .listDirectory path | .readUnixFile path _ | .writeUnixFile path _ _ _ | .createFile path _
  | .createDirectory path _ | .deletePath path _ | .changeMode path _ _ | .changeOwner path _ _
  | .changeTag path _ _ | .submitFile path => some path
  | _ => none

namespace Request

/-- What the call names is what the request names. -/
structure HandsOver (r : Request) (call : Call) : Prop where
  dsn : ∀ dsn, call.dsn? = some dsn →
    r.target.dsn? = some dsn ∨ r.target = .jobQueue ∧ r.payload = .jcl (.dataSet dsn)
  path : ∀ path, call.path? = some path →
    r.target.path? = some path ∨ r.target = .jobQueue ∧ r.payload = .jcl (.file path)

variable {r : Request} {call : Call}

theorem dsn?_of_dsn {dsn : String} (h : r.dsn = .ok dsn) : r.target.dsn? = some dsn := by
  unfold Request.dsn at h
  split at h
  · rename_i hdsn
    cases h
    exact hdsn
  · cases h

theorem handsOver_dsn {dsn : String} (h : r.dsn = .ok dsn) (hcall : call.dsn? = some dsn)
    (hpath : call.path? = none) : r.HandsOver call := by
  constructor
  · intro other hother
    rw [← hother, hcall]
    exact .inl (dsn?_of_dsn h)
  · intro path h
    rw [hpath] at h
    cases h

theorem handsOver_path {path : String} (h : r.target.path? = some path)
    (hcall : call.path? = some path) (hdsn : call.dsn? = none) : r.HandsOver call := by
  constructor
  · intro dsn h
    rw [hdsn] at h
    cases h
  · intro other hother
    rw [← hother, hcall]
    exact .inl h

theorem handsOver_file {path : String} (h : r.target = .file path)
    (hcall : call.path? = some path) (hdsn : call.dsn? = none) : r.HandsOver call := by
  apply handsOver_path _ hcall hdsn
  rw [h]
  rfl

theorem handsOver_nothing (hdsn : call.dsn? = none) (hpath : call.path? = none) :
    r.HandsOver call := by
  constructor
  · intro dsn h
    rw [hdsn] at h
    cases h
  · intro path h
    rw [hpath] at h
    cases h

/-! ## Plans by verb -/

theorem handsOver_of_planList (h : r.planList = .ok call) : r.HandsOver call := by
  unfold planList at h
  split at h
  · cases h
    exact handsOver_nothing rfl rfl
  · split at h
    · cases h
    · obtain ⟨dsn, hdsn, ⟨⟩⟩ := eq_ok_of_bind h
      exact handsOver_dsn hdsn rfl rfl
  · split at h
    · cases h
    · obtain ⟨dsn, hdsn, ⟨⟩⟩ := eq_ok_of_bind h
      exact handsOver_dsn hdsn rfl rfl
  · rename_i path htarget
    cases h
    exact handsOver_path (by rw [htarget]; rfl) rfl rfl
  · cases h
    exact handsOver_nothing rfl rfl
  · cases h
    exact handsOver_nothing rfl rfl
  · cases h

theorem handsOver_of_planRead (h : r.planRead = .ok call) : r.HandsOver call := by
  unfold planRead at h
  simp only at h
  split at h
  · rename_i path htarget
    cases h
    exact handsOver_file htarget rfl rfl
  · cases h
    exact handsOver_nothing rfl rfl
  · cases h
    exact handsOver_nothing rfl rfl
  · cases h
    exact handsOver_nothing rfl rfl
  · obtain ⟨dsn, hdsn, ⟨⟩⟩ := eq_ok_of_bind h
    exact handsOver_dsn hdsn rfl rfl

theorem handsOver_of_planWrite (h : r.planWrite = .ok call) : r.HandsOver call := by
  unfold planWrite at h
  simp only at h
  split at h
  · rename_i path htarget
    obtain ⟨data, _, ⟨⟩⟩ := eq_ok_of_bind h
    exact handsOver_file htarget rfl rfl
  · obtain ⟨dsn, hdsn, h⟩ := eq_ok_of_bind h
    obtain ⟨data, _, ⟨⟩⟩ := eq_ok_of_bind h
    exact handsOver_dsn hdsn rfl rfl

theorem handsOver_of_planCreate (h : r.planCreate = .ok call) : r.HandsOver call := by
  unfold planCreate at h
  split at h
  · rename_i path htarget
    split at h
    · cases h
      exact handsOver_file htarget rfl rfl
    · cases h
      exact handsOver_file htarget rfl rfl
    · cases h
  · split at h
    · obtain ⟨dsn, hdsn, ⟨⟩⟩ := eq_ok_of_bind h
      exact handsOver_dsn hdsn rfl rfl
    · split at h
      · obtain ⟨dsn, hdsn, ⟨⟩⟩ := eq_ok_of_bind h
        exact handsOver_dsn hdsn rfl rfl
      · cases h

theorem handsOver_of_planDelete (h : r.planDelete = .ok call) : r.HandsOver call := by
  unfold planDelete at h
  split at h
  · rename_i path htarget
    cases h
    exact handsOver_file htarget rfl rfl
  · cases h
    exact handsOver_nothing rfl rfl
  · obtain ⟨dsn, hdsn, ⟨⟩⟩ := eq_ok_of_bind h
    exact handsOver_dsn hdsn rfl rfl

theorem handsOver_of_planChange (h : r.planChange = .ok call) : r.HandsOver call := by
  unfold planChange at h
  split at h
  · rename_i path _ htarget _ _
    cases h
    exact handsOver_file htarget rfl rfl
  · rename_i path _ htarget _ _
    cases h
    exact handsOver_file htarget rfl rfl
  · rename_i path _ htarget _ _
    cases h
    exact handsOver_file htarget rfl rfl
  · cases h

theorem handsOver_of_planSubmit (h : r.planSubmit = .ok call) : r.HandsOver call := by
  unfold planSubmit at h
  split at h
  · cases h
    exact handsOver_nothing rfl rfl
  · rename_i dsn htarget hpayload
    cases h
    refine ⟨?_, nofun⟩
    rintro _ ⟨⟩
    exact .inr ⟨htarget, hpayload⟩
  · rename_i path htarget hpayload
    cases h
    refine ⟨nofun, ?_⟩
    rintro _ ⟨⟩
    exact .inr ⟨htarget, hpayload⟩
  · cases h
  · cases h

theorem handsOver_of_plan (h : r.plan = .ok call) : r.HandsOver call := by
  unfold plan at h
  split at h
  · exact handsOver_of_planList h
  · exact handsOver_of_planRead h
  · exact handsOver_of_planWrite h
  · exact handsOver_of_planCreate h
  · exact handsOver_of_planDelete h
  · exact handsOver_of_planChange h
  · exact handsOver_of_planChange h
  · exact handsOver_of_planChange h
  · exact handsOver_of_planSubmit h

end Request

namespace Target

/-- The path starts at the root. -/
def IsAbsolute (path : String) : Prop := path.toList.head? = some '/'

theorem isAbsolute_absolutePath (given : String) : IsAbsolute (absolutePath given) := by
  unfold IsAbsolute absolutePath
  split
  · rename_i hslash
    exact eq_of_beq hslash
  · simp

end Target

namespace Endpoint

variable {e : Endpoint} {raw : String} {q : Query} {body : Body} {r : Request} {call : Call}

/-! ## Where names come from -/

/-- A data set is named by the path of the request or, for a job, by its body. -/
theorem named_dsn {dsn : String} (haccept : e.accept raw q body = .ok r)
    (hplan : r.plan = .ok call) (hdsn : call.dsn? = some dsn) :
    (e ≠ .submitJob ∧ ∃ t, Target.ofDataSetPath raw = .ok t ∧ t.dsn? = some dsn) ∨
      e = .submitJob ∧ ∃ fields, body.object? = some fields ∧
        Body.textField? fields "dsn" = some dsn := by
  have hmade := accept_madeOf haccept
  rcases (Request.handsOver_of_plan hplan).dsn dsn hdsn with htarget | ⟨hqueue, hpayload⟩
  · generalize r.target = t, r.payload = p at hmade htarget
    cases hmade with
    | dataSet _ he hpath => exact .inl ⟨he, t, hpath, htarget⟩
    | job _ hpath =>
      rw [(Target.isJob_of_path hpath).dsn?_eq_none] at htarget
      cases htarget
    | _ => cases htarget
  · obtain ⟨rfl, source, hsource, hjcl⟩ := hmade.source_of_queue hqueue
    cases hpayload.symm.trans hjcl
    rcases jclSource_eq_ok hsource with ⟨fields, name, hobject, hname, ⟨⟩⟩ | ⟨_, ⟨⟩⟩ | ⟨_, ⟨⟩⟩
    exact .inr ⟨rfl, fields, hobject, hname⟩

/-- A file is named by an option when it is listed, and by a path that was made
absolute otherwise. -/
theorem named_path {path : String} (haccept : e.accept raw q body = .ok r)
    (hplan : r.plan = .ok call) (hpath : call.path? = some path) :
    (e = .listFiles ∧ q.path = .ok path) ∨
      e ≠ .listFiles ∧ ∃ given, path = Target.absolutePath given := by
  have hmade := accept_madeOf haccept
  rcases (Request.handsOver_of_plan hplan).path path hpath with htarget | ⟨hqueue, hpayload⟩
  · generalize r.target = t, r.payload = p at hmade htarget
    cases hmade with
    | directory _ hgiven =>
      cases htarget
      exact .inl ⟨rfl, hgiven⟩
    | file _ he =>
      cases htarget
      exact .inr ⟨he, raw, rfl⟩
    | dataSet _ _ hparse =>
      rw [(Target.isDataSet_of_path hparse).path?_eq_none] at htarget
      cases htarget
    | job _ hparse =>
      rw [(Target.isJob_of_path hparse).path?_eq_none] at htarget
      cases htarget
    | _ => cases htarget
  · obtain ⟨rfl, source, hsource, hjcl⟩ := hmade.source_of_queue hqueue
    cases hpayload.symm.trans hjcl
    rcases jclSource_eq_ok hsource with ⟨_, _, _, _, ⟨⟩⟩ | ⟨given, ⟨⟩⟩ | ⟨_, ⟨⟩⟩
    exact .inr ⟨nofun, given, rfl⟩

/-! ## Paths -/

/-- A listing hands over the path that the client wrote, absolute or not. Every
other call hands over an absolute path. -/
theorem planned_path_is_absolute (e : Endpoint) (raw : String) (q : Query) (body : Body)
    {path : String} (haccept : e.accept raw q body = .ok r)
    (hplan : r.plan = .ok call) (hpath : call.path? = some path) :
    (e = .listFiles → q.path = .ok path) ∧ (e ≠ .listFiles → Target.IsAbsolute path) := by
  rcases named_path haccept hplan hpath with ⟨he, hgiven⟩ | ⟨he, given, rfl⟩
  · exact ⟨fun _ => hgiven, fun hne => absurd he hne⟩
  · exact ⟨fun hlist => absurd hlist he, fun _ => Target.isAbsolute_absolutePath given⟩

/-- A relative path is listed as it is, and read from the root. -/
theorem relative_path_is_listed :
    (∃ r, listFiles.accept "" [("path", "u")] [] = .ok r ∧ r.plan = .ok (.listDirectory "u") ∧
      Query.path [("path", "u")] = .ok "u" ∧ ¬Target.IsAbsolute "u") ∧
    ∃ r, readUnixFile.accept "u" [] [] = .ok r ∧ r.plan = .ok (.readUnixFile "/u" "") ∧
      Target.IsAbsolute "/u" := by
  constructor
  · have hlisted := planned_path_is_absolute listFiles "" [("path", "u")] [] rfl rfl rfl
    exact ⟨_, rfl, rfl, hlisted.1 rfl, by unfold Target.IsAbsolute; decide⟩
  · have hread := planned_path_is_absolute readUnixFile "u" [] [] rfl rfl rfl
    exact ⟨_, rfl, rfl, hread.2 nofun⟩

end Endpoint

/-- The machine takes a path from the root in any case, so that a listing shows
the same on it. -/
theorem Host.Machine.listDirectory_absolutePath (time : String) (s : Machine) (path : String) :
    Machine.invoke time (.listDirectory (Target.absolutePath path)) s =
      Machine.invoke time (.listDirectory path) s := by
  have hlist : s.files.list (Target.absolutePath path) = s.files.list path := by
    rw [FileTree.list, FileTree.list, Target.ofText_absolutePath]
  rw [Machine.invoke, Machine.invoke, hlist]

end MvsGateway
