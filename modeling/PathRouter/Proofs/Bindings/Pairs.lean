import Mathlib.Data.List.Induction
import PathRouter.Bindings
import PathRouter.Proofs.Bindings.Repetitions

/-!
# Bindings of pairs

What binding pairs one after another leads to: a repeated key keeps its first place and of its
values the last one counts, and pairs whose keys differ are bound as they come.
-/
namespace PathRouter

open Bindings (value? put ofPairs keys)

namespace Bindings

variable {κ α : Type} [DecidableEq κ]

theorem value?_eq_none_iff {key : κ} {bindings : Bindings κ α} :
    value? key bindings = none ↔ key ∉ keys bindings := by
  induction bindings with
  | nil => simp [value?, keys]
  | cons pair rest ih =>
    have hkeys : keys (pair :: rest) = pair.1 :: keys rest := rfl
    rw [value?, hkeys, List.mem_cons, not_or]
    split <;> simp_all [eq_comm]

theorem value?_append (key : κ) (bindings others : Bindings κ α) :
    value? key (bindings ++ others) = (value? key bindings).or (value? key others) := by
  induction bindings with
  | nil => rfl
  | cons pair rest ih =>
    rw [List.cons_append, value?, value?, ih]
    split <;> rfl

theorem mem_of_value?_eq_some {key : κ} {a : α} {bindings : Bindings κ α}
    (h : value? key bindings = some a) : (key, a) ∈ bindings := by
  induction bindings with
  | nil => cases h
  | cons pair rest ih =>
    rw [value?] at h
    split at h
    · rename_i hkey
      rw [← hkey, ← Option.some.inj h]
      exact List.mem_cons_self
    · exact List.mem_cons_of_mem _ (ih h)

end Bindings

variable {κ α : Type} [DecidableEq κ]

theorem ofPairs_append_singleton (pairs : List (κ × α)) (pair : κ × α) :
    ofPairs (pairs ++ [pair]) = put pair.1 pair.2 (ofPairs pairs) := by
  rw [ofPairs, List.foldl_append]
  rfl

/-- Of a repeated key the last value counts. -/
theorem value?_ofPairs (key : κ) (pairs : List (κ × α)) :
    value? key (ofPairs pairs) = (pairs.reverse.find? (·.1 = key)).map (·.2) := by
  induction pairs using List.reverseRecOn with
  | nil => rfl
  | append_singleton pairs pair ih =>
    rw [ofPairs_append_singleton, Bindings.value?_put, ih, List.reverse_concat, List.find?_cons]
    by_cases h : key = pair.1
    · simp [h]
    · have hne : ¬ pair.1 = key := fun e => h e.symm
      simp [h, hne]

/-- Each key stands where it was bound first. -/
theorem keys_ofPairs (pairs : List (κ × α)) :
    keys (ofPairs pairs) = (pairs.map (·.1)).eraseDups := by
  induction pairs using List.reverseRecOn with
  | nil => rfl
  | append_singleton pairs pair ih =>
    rw [ofPairs_append_singleton, put, Bindings.keys_alter, ih, List.map_append,
      List.map_singleton, eraseDups_append_singleton]

theorem nodup_keys_ofPairs (pairs : List (κ × α)) : (keys (ofPairs pairs)).Nodup := by
  rw [keys_ofPairs]
  exact nodup_eraseDups _

theorem mem_of_mem_put {key : κ} {value : α} {bindings : List (κ × α)} {pair : κ × α}
    (h : pair ∈ put key value bindings) : pair = (key, value) ∨ pair ∈ bindings := by
  induction bindings with
  | nil => exact Or.inl (List.mem_singleton.mp h)
  | cons first rest ih =>
    rw [put, Bindings.alter] at h
    split at h
    · rename_i hkey
      rcases List.mem_cons.mp h with rfl | h
      · exact Or.inl (by rw [hkey])
      · exact Or.inr (List.mem_cons_of_mem _ h)
    · rcases List.mem_cons.mp h with rfl | h
      · exact Or.inr List.mem_cons_self
      · exact (ih h).imp_right (List.mem_cons_of_mem _)

theorem mem_of_mem_ofPairs {pairs : List (κ × α)} {pair : κ × α} (h : pair ∈ ofPairs pairs) :
    pair ∈ pairs := by
  induction pairs using List.reverseRecOn with
  | nil => cases h
  | append_singleton pairs last ih =>
    rw [ofPairs_append_singleton] at h
    rcases mem_of_mem_put h with rfl | h
    · exact List.mem_append_right _ List.mem_cons_self
    · exact List.mem_append_left _ (ih h)

theorem put_of_not_mem {key : κ} {value : α} {bindings : List (κ × α)}
    (h : key ∉ keys bindings) : put key value bindings = bindings ++ [(key, value)] := by
  induction bindings with
  | nil => rfl
  | cons first rest ih =>
    have hfirst : first.1 ≠ key := fun e => h (e ▸ List.mem_cons_self)
    have hrest : key ∉ keys rest := fun hmem => h (List.mem_cons_of_mem _ hmem)
    rw [put, Bindings.alter, if_neg hfirst, List.cons_append, ← ih hrest, put]

/-- Pairs whose keys differ are bound as they come. -/
theorem ofPairs_of_nodup {pairs : List (κ × α)} (h : (pairs.map (·.1)).Nodup) :
    ofPairs pairs = pairs := by
  induction pairs using List.reverseRecOn with
  | nil => rfl
  | append_singleton pairs pair ih =>
    rw [List.map_append, List.nodup_append] at h
    obtain ⟨hpairs, _, hdisjoint⟩ := h
    rw [ofPairs_append_singleton, ih hpairs, put_of_not_mem]
    exact fun hmem => hdisjoint _ hmem _ (by simp) rfl

section FilterMap

variable {β : Type}

omit [DecidableEq κ] in
/-- What becomes of the values does not move a key. -/
theorem keys_filterMap_sublist (f : κ × α → Option β) (bindings : List (κ × α)) :
    (keys (bindings.filterMap fun pair => (f pair).map (pair.1, ·))).Sublist (keys bindings) := by
  induction bindings with
  | nil => exact List.Sublist.slnil
  | cons pair rest ih =>
    rw [List.filterMap_cons]
    cases f pair with
    | none => exact ih.cons pair.1
    | some b => exact ih.cons_cons pair.1

/-- Where no key is bound twice, a key has what becomes of its own value. -/
theorem value?_filterMap (f : κ × α → Option β) {bindings : List (κ × α)}
    (h : (keys bindings).Nodup) (key : κ) :
    value? key (bindings.filterMap fun pair => (f pair).map (pair.1, ·)) =
      (value? key bindings).bind fun a => f (key, a) := by
  induction bindings with
  | nil => rfl
  | cons pair rest ih =>
    obtain ⟨hfresh, hrest⟩ := List.nodup_cons.mp h
    rw [List.filterMap_cons, value?]
    by_cases hkey : pair.1 = key
    · rw [if_pos hkey, Option.bind_some]
      subst hkey
      cases hf : f pair with
      | none =>
        refine Bindings.value?_eq_none_iff.mpr fun hmem => hfresh ?_
        exact (keys_filterMap_sublist f rest).subset hmem
      | some b => exact if_pos rfl
    · rw [if_neg hkey, ← ih hrest]
      cases f pair with
      | none => rfl
      | some b => exact if_neg hkey

end FilterMap

end PathRouter
