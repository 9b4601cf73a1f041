import Mathlib.Tactic

/-!
# Digest-framed records which carry their own size

A record is a body behind a digest of fixed length; the body begins with a
header in which its size is stored.  Whatever collisions the digest has, a
record is determined by its body, and no accepted record is a proper prefix
of another one.
-/

structure FramedRecord (Symbol : Type) where
  digestLength : ℕ
  digest : List Symbol → List Symbol
  digest_length : ∀ body, (digest body).length = digestLength
  headerLength : ℕ
  size : List Symbol → ℕ
  /-- The size is read from the header alone. -/
  size_of_header : ∀ first second,
    first.take headerLength = second.take headerLength →
      size first = size second

namespace FramedRecord

variable {Symbol : Type} (format : FramedRecord Symbol)

def frame (body : List Symbol) : List Symbol :=
  format.digest body ++ body

def body (record : List Symbol) : List Symbol :=
  record.drop format.digestLength

structure Accepts (record : List Symbol) : Prop where
  digest_eq :
    format.digest (format.body record) = record.take format.digestLength
  size_eq : format.size (format.body record) = (format.body record).length

def HasHeader (record : List Symbol) : Prop :=
  format.headerLength ≤ (format.body record).length

@[simp] theorem body_frame (body : List Symbol) :
    format.body (format.frame body) = body := by
  unfold FramedRecord.body frame
  rw [← format.digest_length body]
  exact List.drop_left

@[simp] theorem take_frame (body : List Symbol) :
    (format.frame body).take format.digestLength = format.digest body := by
  unfold frame
  rw [← format.digest_length body]
  exact List.take_left

theorem accepts_frame {body : List Symbol}
    (hsize : format.size body = body.length) :
    format.Accepts (format.frame body) := by
  constructor <;> simp [hsize]

variable {format}

theorem Accepts.eq_frame {record : List Symbol}
    (haccepts : format.Accepts record) :
    record = format.frame (format.body record) := by
  unfold frame
  rw [haccepts.digest_eq]
  exact (List.take_append_drop _ _).symm

theorem Accepts.eq_of_body_eq {first second : List Symbol}
    (hfirst : format.Accepts first) (hsecond : format.Accepts second)
    (hbody : format.body first = format.body second) :
    first = second := by
  rw [hfirst.eq_frame, hsecond.eq_frame, hbody]

/-- The size in the header pins the length, so that an accepted record has
no accepted proper extension. -/
theorem Accepts.eq_of_prefix {first second : List Symbol}
    (hfirst : format.Accepts first) (hsecond : format.Accepts second)
    (hheader : format.HasHeader first) (hinitial : first <+: second) :
    first = second := by
  obtain ⟨rest, hrest⟩ := hinitial
  have hlong : format.digestLength ≤ first.length := by
    have hlength := congrArg List.length hfirst.digest_eq
    rw [format.digest_length, List.length_take] at hlength
    omega
  have hbody : format.body second = format.body first ++ rest := by
    unfold FramedRecord.body
    rw [← hrest, List.drop_append_of_le_length hlong]
  have hsize : format.size (format.body second) =
      format.size (format.body first) := by
    apply format.size_of_header
    rw [hbody, List.take_append_of_le_length hheader]
  have hempty : rest.length = 0 := by
    have hlength := congrArg List.length hbody
    rw [List.length_append, ← hsecond.size_eq, hsize, hfirst.size_eq] at hlength
    omega
  rw [← hrest, List.length_eq_zero_iff.mp hempty, List.append_nil]

end FramedRecord
