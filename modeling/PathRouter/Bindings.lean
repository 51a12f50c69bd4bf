/-!
# Insertion-ordered bindings

Pairs of a key and a value, at most one per key. A key keeps the place where it was first bound,
and a later value for it takes that place over.
-/
namespace PathRouter

universe u v

/-- Keys with their values, in the order in which the keys were first bound. -/
abbrev Bindings (κ : Type u) (α : Type v) := List (κ × α)

namespace Bindings

variable {κ : Type u} {α : Type v} [DecidableEq κ]

def keys (bindings : Bindings κ α) : List κ := bindings.map (·.1)

def value? (key : κ) : Bindings κ α → Option α
  | [] => none
  | (k, a) :: rest => if k = key then some a else value? key rest

/-- Changes the value at `key` in place; a key without a value is bound last. -/
def alter (key : κ) (change : Option α → α) : Bindings κ α → Bindings κ α
  | [] => [(key, change none)]
  | (k, a) :: rest =>
    if k = key then (k, change (some a)) :: rest else (k, a) :: alter key change rest

def put (key : κ) (value : α) (bindings : Bindings κ α) : Bindings κ α :=
  bindings.alter key fun _ => value

/-- Binds the pairs one after another, so that the last value of a repeated key counts. -/
def ofPairs (pairs : List (κ × α)) : Bindings κ α :=
  pairs.foldl (fun bindings pair => put pair.1 pair.2 bindings) []

theorem value?_alter (key : κ) (change : Option α → α) (bindings : Bindings κ α) (k : κ) :
    value? k (alter key change bindings) =
      if k = key then some (change (value? key bindings)) else value? k bindings := by
  induction bindings with
  | nil => simp [alter, value?, eq_comm]
  | cons pair rest ih =>
    obtain ⟨k', a⟩ := pair
    simp only [alter, value?]
    by_cases hk : k' = key
    · subst hk
      by_cases h : k' = k
      · simp [value?, h]
      · have hne : ¬ k = k' := fun e => h e.symm
        simp [value?, h, hne]
    · simp only [hk, if_false, value?, ih]
      by_cases h : k' = k
      · have hne : ¬ k = key := fun e => hk (h.trans e)
        simp [h, hne]
      · simp [h]

theorem value?_put (key : κ) (value : α) (bindings : Bindings κ α) (k : κ) :
    value? k (put key value bindings) = if k = key then some value else value? k bindings :=
  value?_alter key (fun _ => value) bindings k

/-- A new key comes last, and nothing else moves a key. -/
theorem keys_alter (key : κ) (change : Option α → α) (bindings : Bindings κ α) :
    keys (alter key change bindings) =
      if key ∈ keys bindings then keys bindings else keys bindings ++ [key] := by
  induction bindings with
  | nil => simp [alter, keys]
  | cons pair rest ih =>
    obtain ⟨k, a⟩ := pair
    by_cases hk : k = key
    · simp [alter, keys, hk]
    · have hne : ¬ key = k := fun e => hk e.symm
      simp only [alter, hk, if_false]
      change k :: keys (alter key change rest) = if key ∈ k :: keys rest then k :: keys rest
        else k :: keys rest ++ [key]
      rw [ih]
      by_cases hm : key ∈ keys rest <;> simp [hm, hne]

theorem nodup_keys_alter {key : κ} {change : Option α → α} {bindings : Bindings κ α}
    (h : (keys bindings).Nodup) : (keys (alter key change bindings)).Nodup := by
  rw [keys_alter]
  split
  · exact h
  · rename_i hm
    refine List.nodup_append.mpr ⟨h, by simp, ?_⟩
    intro a ha b hb e
    rw [List.mem_singleton] at hb
    exact hm (hb ▸ e ▸ ha)

end Bindings

end PathRouter
