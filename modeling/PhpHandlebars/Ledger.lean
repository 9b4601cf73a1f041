import Mathlib.Data.Multiset.AddSub
import Mathlib.Tactic

/-!
# Ledgers of acquisitions and releases

A ledger is a list of acquisitions and releases of keys.  It settles when
every release finds an earlier acquisition of the same key that no other
release has used, and it is balanced when nothing stays acquired at its end.
-/

inductive LedgerEntry (Key : Type) where
  | acquire (key : Key)
  | release (key : Key)
  deriving DecidableEq

abbrev Ledger (Key : Type) := List (LedgerEntry Key)

namespace Ledger

variable {Key : Type} [DecidableEq Key]

/-- What is held after a ledger, or nothing when some release is not backed
by an acquisition. -/
def settle : Multiset Key → Ledger Key → Option (Multiset Key)
  | held, [] => some held
  | held, .acquire key :: rest => settle (key ::ₘ held) rest
  | held, .release key :: rest =>
      if key ∈ held then settle (held.erase key) rest else none

/-- Every key acquired is released exactly once, after its acquisition, and
nothing else is released. -/
def Balanced (ledger : Ledger Key) : Prop :=
  settle 0 ledger = some 0

instance (ledger : Ledger Key) : Decidable (Balanced ledger) :=
  inferInstanceAs (Decidable (settle 0 ledger = some 0))

@[simp] theorem balanced_nil : Balanced ([] : Ledger Key) := rfl

theorem settle_append
    (held : Multiset Key) (first second : Ledger Key) :
    settle held (first ++ second) =
      (settle held first).bind fun middle => settle middle second := by
  induction first generalizing held with
  | nil => rfl
  | cons entry rest ih =>
      cases entry with
      | acquire key => simpa [settle] using ih (key ::ₘ held)
      | release key =>
          by_cases hmem : key ∈ held
          · simpa [settle, hmem] using ih (held.erase key)
          · simp [settle, hmem]

theorem settle_add
    {held out : Multiset Key} {ledger : Ledger Key}
    (hsettle : settle held ledger = some out) (extra : Multiset Key) :
    settle (held + extra) ledger = some (out + extra) := by
  induction ledger generalizing held with
  | nil =>
      have hout : held = out := by simpa [settle] using hsettle
      simp [settle, hout]
  | cons entry rest ih =>
      cases entry with
      | acquire key =>
          have hrest : settle (key ::ₘ held) rest = some out := by
            simpa [settle] using hsettle
          simpa [settle] using ih hrest
      | release key =>
          by_cases hmem : key ∈ held
          · have hrest : settle (held.erase key) rest = some out := by
              simpa [settle, hmem] using hsettle
            have hmem' : key ∈ held + extra := Multiset.mem_add.mpr (.inl hmem)
            rw [settle, if_pos hmem', Multiset.erase_add_left_pos extra hmem]
            exact ih hrest
          · simp [settle, hmem] at hsettle

theorem Balanced.settle_self
    {ledger : Ledger Key} (hbalanced : Balanced ledger)
    (held : Multiset Key) :
    settle held ledger = some held := by
  simpa using settle_add hbalanced held

theorem Balanced.append
    {first second : Ledger Key}
    (hfirst : Balanced first) (hsecond : Balanced second) :
    Balanced (first ++ second) := by
  unfold Balanced
  rw [settle_append, hfirst.settle_self]
  exact hsecond

theorem Balanced.append_iff
    {first : Ledger Key} (hfirst : Balanced first) (second : Ledger Key) :
    Balanced (first ++ second) ↔ Balanced second := by
  unfold Balanced
  rw [settle_append, hfirst.settle_self]
  rfl

theorem settle_map_acquire (held : Multiset Key) (keys : List Key) :
    settle held (keys.map .acquire) = some ((keys : Multiset Key) + held) := by
  induction keys generalizing held with
  | nil => simp [settle]
  | cons key rest ih =>
      rw [List.map_cons, settle, ih, ← Multiset.cons_coe,
        Multiset.cons_add, Multiset.add_cons]

theorem settle_map_release (held : Multiset Key) (keys : List Key) :
    settle ((keys : Multiset Key) + held) (keys.map .release) = some held := by
  induction keys with
  | nil => simp [settle]
  | cons key rest ih =>
      rw [List.map_cons, settle, ← Multiset.cons_coe, Multiset.cons_add,
        if_pos (Multiset.mem_cons_self _ _), Multiset.erase_cons_head, ih]

/-- What is acquired first and released last leaves what the ledger between
leaves. -/
theorem settle_bracket {inner : Ledger Key} {out : Multiset Key}
    (hinner : settle 0 inner = some out) (keys : List Key) :
    settle 0 (keys.map .acquire ++ inner ++ keys.map .release) =
      some out := by
  have hmiddle := settle_add hinner (keys : Multiset Key)
  rw [zero_add] at hmiddle
  rw [settle_append, settle_append, settle_map_acquire, add_zero,
    Option.bind_some, hmiddle, Option.bind_some, add_comm,
    settle_map_release]

/-- Ledgers which each settle on their own leave together what each of them
leaves. -/
theorem settle_flatMap
    {Step : Type} {ledger : Step → Ledger Key} {left : Step → Multiset Key}
    (hsettle : ∀ step, settle 0 (ledger step) = some (left step))
    (steps : List Step) :
    settle 0 (steps.flatMap ledger) = some (steps.map left).sum := by
  induction steps with
  | nil => rfl
  | cons step rest ih =>
      have hrest := settle_add ih (left step)
      rw [List.flatMap_cons, settle_append, hsettle, Option.bind_some]
      simpa [add_comm] using hrest

/-- Then they are balanced together exactly when each of them is. -/
theorem balanced_flatMap_iff
    {Step : Type} {ledger : Step → Ledger Key} {left : Step → Multiset Key}
    (hsettle : ∀ step, settle 0 (ledger step) = some (left step))
    (steps : List Step) :
    Balanced (steps.flatMap ledger) ↔ ∀ step ∈ steps, left step = 0 := by
  rw [Balanced, settle_flatMap hsettle, Option.some_inj]
  induction steps with
  | nil => simp
  | cons step rest ih => simp [ih]

/-- A balanced ledger may stand in the middle of another one. -/
theorem Balanced.insert
    {before inner after : Ledger Key}
    (houter : Balanced (before ++ after)) (hinner : Balanced inner) :
    Balanced (before ++ inner ++ after) := by
  unfold Balanced at houter ⊢
  rw [settle_append] at houter
  rw [settle_append, settle_append]
  cases hbefore : settle 0 before with
  | none => simp [hbefore] at houter
  | some held =>
      rw [hbefore] at houter
      simpa [hinner.settle_self] using houter

theorem card_of_settle
    {held out : Multiset Key} {ledger : Ledger Key} (key : Key)
    (hsettle : settle held ledger = some out) :
    out.count key + ledger.count (.release key) =
      held.count key + ledger.count (.acquire key) := by
  induction ledger generalizing held with
  | nil =>
      have hout : held = out := by simpa [settle] using hsettle
      simp [hout]
  | cons entry rest ih =>
      cases entry with
      | acquire other =>
          have hstep : settle (other ::ₘ held) rest = some out := by
            simpa [settle] using hsettle
          have hrest := ih hstep
          by_cases hkey : key = other
          · subst other
            simp at hrest ⊢
            omega
          · have hne : LedgerEntry.acquire other ≠ LedgerEntry.acquire key := by
              simpa using Ne.symm hkey
            simp [hkey, List.count_cons_of_ne hne] at hrest ⊢
            omega
      | release other =>
          by_cases hmem : other ∈ held
          · have hstep : settle (held.erase other) rest = some out := by
              simpa [settle, hmem] using hsettle
            have hrest := ih hstep
            by_cases hkey : key = other
            · subst other
              have hpos : 0 < held.count key := Multiset.count_pos.mpr hmem
              simp [Multiset.count_erase_self] at hrest ⊢
              omega
            · have hne : LedgerEntry.release other ≠ LedgerEntry.release key := by
                simpa using Ne.symm hkey
              simp [Multiset.count_erase_of_ne hkey,
                List.count_cons_of_ne hne] at hrest ⊢
              omega
          · simp [settle, hmem] at hsettle

/-- In a balanced ledger each key is released exactly as often as it is
acquired. -/
theorem Balanced.count_release
    {ledger : Ledger Key} (hbalanced : Balanced ledger) (key : Key) :
    ledger.count (.release key) = ledger.count (.acquire key) := by
  simpa using card_of_settle key hbalanced

/-! ## Counting -/

theorem count_acquire_bracket (held : List Key) (inner : Ledger Key)
    (key : Key) :
    List.count (.acquire key)
        (held.map .acquire ++ inner ++ held.map .release) =
      held.count key + inner.count (.acquire key) := by
  have hinjective : Function.Injective (@LedgerEntry.acquire Key) := by
    intro first second heq
    exact LedgerEntry.acquire.inj heq
  have hnone : List.count (.acquire key) (held.map LedgerEntry.release) = 0 := by
    simp [List.count_eq_zero]
  rw [List.count_append, List.count_append, hnone,
    List.count_map_of_injective held _ hinjective, add_zero]

theorem count_release_bracket (held : List Key) (inner : Ledger Key)
    (key : Key) :
    List.count (.release key)
        (held.map .acquire ++ inner ++ held.map .release) =
      held.count key + inner.count (.release key) := by
  have hinjective : Function.Injective (@LedgerEntry.release Key) := by
    intro first second heq
    exact LedgerEntry.release.inj heq
  have hnone : List.count (.release key) (held.map LedgerEntry.acquire) = 0 := by
    simp [List.count_eq_zero]
  rw [List.count_append, List.count_append, hnone,
    List.count_map_of_injective held _ hinjective, zero_add, add_comm]

end Ledger
