import PathRouter.Proofs.Priority.CanonicalOrder

/-!
# The pairwise law

What the canonical order says of any two templates, in terms of their key paths, the kinds of their
last segments and the optional catch-alls among all templates. A position in the order belongs to
one template; templates with one text keep apart.
-/
namespace PathRouter

theorem endsOptionally_map_standing {templates : List Template} {path : List Key} :
    EndsOptionally (templates.map Template.standing) path ↔
      ∃ v ∈ templates, v.keyPath = path ∧ v.lastKind = .optionalCatchAll := by
  unfold EndsOptionally
  constructor
  · intro hends
    obtain ⟨s, hs, hpath, hrank⟩ := hends
    obtain ⟨v, hv, rfl⟩ := List.mem_map.mp hs
    exact ⟨v, hv, hpath, Kind.rank_eq_optionalCatchAll.mp hrank⟩
  · intro hends
    obtain ⟨v, hv, hpath, hkind⟩ := hends
    exact ⟨v.standing, List.mem_map_of_mem hv, hpath, Kind.rank_eq_optionalCatchAll.mpr hkind⟩

theorem yields_map_standing {templates : List Template} {t : Template} {next : Key} :
    t.standing.Yields (templates.map Template.standing) next ↔
      t.lastKind = .catchAll ∨
        (∃ v ∈ templates, v.keyPath = t.keyPath ∧ v.lastKind = .optionalCatchAll) ∨
        (next ≠ .slot ∧
          ∃ v ∈ templates, v.keyPath = t.keyPath ++ [.slot] ∧ v.lastKind = .optionalCatchAll) := by
  unfold Standing.Yields
  rw [endsOptionally_map_standing, endsOptionally_map_standing]
  exact or_congr_left Kind.rank_eq_catchAll

section Positions

variable {all : List Standing} {order : List Template} {i j : Nat} {t u : Template}
  (hpairwise : order.Pairwise fun t u => Precedes all t.standing u.standing)
  (hi : order[i]? = some t) (hj : order[j]? = some u)
include hpairwise hi hj

theorem precedes_of_lt (hij : i < j) : Precedes all t.standing u.standing := by
  obtain ⟨_, rfl⟩ := List.getElem?_eq_some_iff.mp hi
  obtain ⟨_, rfl⟩ := List.getElem?_eq_some_iff.mp hj
  exact List.pairwise_iff_getElem.mp hpairwise i j _ _ hij

/-- Where two key paths differ, the law says which of two positions is the earlier one. -/
theorem lt_iff_precedes (hpath : t.keyPath ≠ u.keyPath) :
    i < j ↔ Precedes all t.standing u.standing := by
  constructor
  · exact precedes_of_lt hpairwise hi hj
  · intro hprecedes
    rcases Nat.lt_trichotomy i j with h | rfl | h
    · exact h
    · rw [hi] at hj
      exact absurd (congrArg Template.keyPath (Option.some.inj hj)) hpath
    · have hsame := hprecedes.antisymm (precedes_of_lt hpairwise hj hi h)
      exact absurd (congrArg Standing.path hsame) hpath

theorem lt_iff_before {common p q : List Key} {a b : Key} (ht : t.keyPath = common ++ a :: p)
    (hu : u.keyPath = common ++ b :: q) (hab : a ≠ b) : i < j ↔ a.Before b := by
  have hbranching : branching t.keyPath u.keyPath = .apart a b := by
    rw [ht, hu, branching_apart common p q hab]
  rw [lt_iff_precedes hpairwise hi hj (ne_of_branching hbranching (by simp))]
  exact precedes_iff_of_apart hbranching

theorem lt_iff_yields {next : Key} {rest : List Key} (hu : u.keyPath = t.keyPath ++ next :: rest) :
    j < i ↔ t.standing.Yields all next := by
  have hbranching : branching u.keyPath t.keyPath = .below next := by
    rw [branching_swap, hu, branching_append, Branching.swap]
  rw [lt_iff_precedes hpairwise hj hi (ne_of_branching hbranching (by simp))]
  exact precedes_iff_of_below hbranching

end Positions

/-- Where the key paths of two templates part, a literal comes before the slot and the smaller
literal before the larger one. On one key path the lower rank of the last segment comes first, then
the earlier text. A template comes before those whose key paths go on from its own with `next`,
unless it ends in a catch-all, or an optional catch-all ends at its key path, or one ends in the
slot there while `next` is a literal. The first four parts say of key paths, last kinds and ranks
what they are in terms of the segments. -/
theorem flatten_obeys_pairwise_law (templates : List Template) :
    (∀ t : Template, t.keyPath = (t.segments.filter (·.value ≠ "")).map fun s =>
      if s.kind = .literal then .literal s.value else .slot) ∧
    (∀ t : Template, (∀ s ∈ t.segments, s.value = "") → t.lastKind = .literal) ∧
    (∀ (t : Template) (front back : List Segment) (s : Segment),
      t.segments = front ++ s :: back → s.value ≠ "" → (∀ e ∈ back, e.value = "") →
        t.lastKind = s.kind) ∧
    (Kind.literal.rank < Kind.optionalCatchAll.rank ∧
      Kind.optionalCatchAll.rank < Kind.param.rank ∧ Kind.param.rank = Kind.optionalParam.rank ∧
      Kind.optionalParam.rank < Kind.catchAll.rank) ∧
    ∃ order : List Template, order.Perm templates ∧
      order.map (·.raw) = (Tree.ofTemplates templates).flatten ∧
      ∀ (i j : Nat) (t u : Template), order[i]? = some t → order[j]? = some u →
        (∀ (common : List Key) (text : String) (p q : List Key),
          t.keyPath = common ++ .literal text :: p → u.keyPath = common ++ .slot :: q → i < j) ∧
        (∀ (common : List Key) (x y : String) (p q : List Key),
          t.keyPath = common ++ .literal x :: p → u.keyPath = common ++ .literal y :: q → x ≠ y →
            (i < j ↔ x < y)) ∧
        (t.keyPath = u.keyPath → i < j → t.lastKind.rank < u.lastKind.rank ∨
          (t.lastKind.rank = u.lastKind.rank ∧ t.raw ≤ u.raw)) ∧
        (∀ (next : Key) (rest : List Key), u.keyPath = t.keyPath ++ next :: rest →
          (j < i ↔ t.lastKind = .catchAll ∨
            (∃ v ∈ templates, v.keyPath = t.keyPath ∧ v.lastKind = .optionalCatchAll) ∨
            (next ≠ .slot ∧ ∃ v ∈ templates,
              v.keyPath = t.keyPath ++ [.slot] ∧ v.lastKind = .optionalCatchAll))) := by
  refine ⟨Template.keyPath_eq, fun _ => Template.lastKind_eq_literal,
    fun _ _ _ _ => Template.lastKind_eq_kind, by decide, ?_⟩
  obtain ⟨order, hperm, hraw, hpairwise⟩ := exists_canonicalOrder templates
  refine ⟨order, hperm, hraw, ?_⟩
  intro i j t u hi hj
  refine ⟨?_, ?_, ?_, ?_⟩
  · intro common text p q ht hu
    have hbefore : (Key.literal text).Before .slot := trivial
    exact (lt_iff_before hpairwise hi hj ht hu hbefore.ne).mpr hbefore
  · intro common x y p q ht hu hxy
    exact lt_iff_before hpairwise hi hj ht hu fun h => hxy (Key.literal.inj h)
  · exact fun hpath hij => (precedes_iff_of_same hpath).mp (precedes_of_lt hpairwise hi hj hij)
  · intro next rest hu
    rw [← yields_map_standing]
    exact lt_iff_yields hpairwise hi hj hu

theorem flatten_moves_route_behind_literals :
    ∃ order : List Template,
      order.map (·.raw) = (Tree.ofTemplates
        (["/[x]/a", "/a", "/a/[[...rest]]", "/a/b"].map Template.parse)).flatten ∧
      ∃ i j k : Nat, order[i]? = some (.parse "/a/b") ∧ order[j]? = some (.parse "/a") ∧
        order[k]? = some (.parse "/[x]/a") ∧ i < j ∧ j < k := by
  obtain ⟨_, _, _, _, order, hperm, hraw, hlaw⟩ :=
    flatten_obeys_pairwise_law (["/[x]/a", "/a", "/a/[[...rest]]", "/a/b"].map Template.parse)
  have hstands (route : String) (h : route ∈ ["/[x]/a", "/a", "/a/[[...rest]]", "/a/b"]) :
      ∃ i : Nat, order[i]? = some (.parse route) :=
    List.mem_iff_getElem?.mp (hperm.mem_iff.mpr (List.mem_map_of_mem h))
  obtain ⟨i, hi⟩ := hstands "/a/b" (by decide)
  obtain ⟨j, hj⟩ := hstands "/a" (by decide)
  obtain ⟨k, hk⟩ := hstands "/[x]/a" (by decide)
  refine ⟨order, hraw, i, j, k, hi, hj, hk, ?_, ?_⟩
  · obtain ⟨_, _, _, hgoesOn⟩ := hlaw j i _ _ hj hi
    refine (hgoesOn (.literal "b") [] (by decide)).mpr (Or.inr (Or.inr ⟨by decide, ?_⟩))
    exact ⟨.parse "/a/[[...rest]]", List.mem_map_of_mem (by decide), by decide, by decide⟩
  · obtain ⟨hslot, _⟩ := hlaw j k _ _ hj hk
    exact hslot [] "a" [] [.literal "a"] (by decide) (by decide)

end PathRouter
