import MvsGateway.Md5
import MvsGateway.Host.Error

/-!
# Content tags

A tag stands for the content it was computed from. A writer that names the tag
it has seen is refused once the content has another one.
-/

namespace MvsGateway.Host

/-- The tag of a text: its MD5 digest in hex. -/
def contentTag (content : String) : String := Md5.hexOfString content

/-- Refuses a write whose expected tag is not that of the current content. An
empty expected tag is no expectation. -/
def checkTag (name expected current : String) : Except Error Unit :=
  if expected == "" || contentTag current == expected then .ok ()
  else .error (.etagMismatch name expected (contentTag current))

theorem contentTag_ne_empty (content : String) : contentTag content ≠ "" := by
  intro h
  have := Md5.length_hexOfString content
  simp [contentTag] at h
  simp [h] at this

/-- Every tag has thirty-two digits. -/
theorem length_contentTag (content : String) : (contentTag content).toList.length = 32 :=
  Md5.length_hexOfString content

theorem checkTag_eq_ok_iff {name expected current : String} :
    checkTag name expected current = .ok () ↔ expected = "" ∨ contentTag current = expected := by
  simp only [checkTag]
  split <;> rename_i h
  · simpa using h
  · simpa using h

theorem checkTag_eq_error_iff {name expected current : String} {e : Error} :
    checkTag name expected current = .error e ↔
      expected ≠ "" ∧ contentTag current ≠ expected ∧
        e = .etagMismatch name expected (contentTag current) := by
  simp only [checkTag]
  split <;> rename_i h
  · simp only [Bool.or_eq_true, beq_iff_eq] at h
    rcases h with h | h <;> simp [h]
  · simp only [Bool.or_eq_true, beq_iff_eq, not_or] at h
    simp [h.1, h.2, eq_comm]

end MvsGateway.Host
