import PathRouter.Priority.Key

/-!
# Precedence

The law of the canonical order, said of two templates at a time. Where their key paths part, the
keys decide. At the end of one key path the kinds of the last segments decide, then the texts. A
template whose key path ends earlier comes first, unless it yields to what goes on from there.
Whether it yields depends on the other templates, so the law is relative to all of them.
-/
namespace PathRouter

/-- All that decides the place of a template in the canonical order. -/
structure Standing where
  path : List Key
  rank : Nat
  raw : String
  deriving DecidableEq, Repr

def Template.standing (template : Template) : Standing :=
  ⟨template.keyPath, template.lastKind.rank, template.raw⟩

/-- A template as seen from the node where its key path ends. -/
def Ending.standing (ending : Ending) : Standing := ⟨[], ending.kind.rank, ending.raw⟩

/-- A template below a child, as seen from the parent. -/
def Standing.under (key : Key) (s : Standing) : Standing := { s with path := key :: s.path }

@[simp] theorem path_under (key : Key) (s : Standing) : (s.under key).path = key :: s.path := rfl
@[simp] theorem rank_under (key : Key) (s : Standing) : (s.under key).rank = s.rank := rfl
@[simp] theorem raw_under (key : Key) (s : Standing) : (s.under key).raw = s.raw := rfl

theorem Kind.rank_eq_catchAll {kind : Kind} :
    kind.rank = catchAll.rank ↔ kind = catchAll := by
  cases kind <;> decide

theorem Kind.rank_eq_optionalCatchAll {kind : Kind} :
    kind.rank = optionalCatchAll.rank ↔ kind = optionalCatchAll := by
  cases kind <;> decide

theorem Kind.rank_le_catchAll (kind : Kind) : kind.rank ≤ catchAll.rank := by
  cases kind <;> decide

/-- Literals come in the order of their texts, and the slot comes after them. -/
def Key.Before : Key → Key → Prop
  | literal a, literal b => a < b
  | literal _, slot => True
  | slot, _ => False

theorem Key.Before.asymm {a b : Key} (h : a.Before b) : ¬ b.Before a := by
  cases a <;> cases b
  · exact String.lt_asymm h
  · exact id
  · exact h.elim
  · exact h.elim

theorem Key.Before.ne {a b : Key} (h : a.Before b) : a ≠ b := by
  rintro rfl
  exact h.asymm h

/-- How two key paths lie to each other. -/
inductive Branching
  | same
  /-- The first path ends where the second one goes on with this key. -/
  | above (next : Key)
  /-- The second path ends where the first one goes on with this key. -/
  | below (next : Key)
  /-- The paths first differ by these keys. -/
  | apart (a b : Key)
  deriving DecidableEq, Repr

def Branching.swap : Branching → Branching
  | same => same
  | above next => below next
  | below next => above next
  | apart a b => apart b a

def branching : List Key → List Key → Branching
  | [], [] => .same
  | [], next :: _ => .above next
  | next :: _, [] => .below next
  | a :: p, b :: q => if a = b then branching p q else .apart a b

@[simp] theorem branching_cons (key : Key) (p q : List Key) :
    branching (key :: p) (key :: q) = branching p q := if_pos rfl

theorem branching_swap (p q : List Key) : branching q p = (branching p q).swap := by
  fun_induction branching p q with
  | case1 => rfl
  | case2 => rfl
  | case3 => rfl
  | case4 p a q ih => rw [branching_cons, ih]
  | case5 a p b q hab => rw [branching, if_neg (Ne.symm hab), Branching.swap]

@[simp] theorem branching_self (p : List Key) : branching p p = .same := by
  induction p with
  | nil => rfl
  | cons key p ih => rw [branching_cons, ih]

theorem ne_of_branching {p q : List Key} {b : Branching} (h : branching p q = b)
    (hb : b ≠ .same) : p ≠ q := by
  rintro rfl
  exact hb (h.symm.trans (branching_self p))

@[simp] theorem branching_append (p : List Key) (next : Key) (rest : List Key) :
    branching p (p ++ next :: rest) = .above next := by
  induction p with
  | nil => rfl
  | cons key p ih => rw [List.cons_append, branching_cons, ih]

theorem branching_apart (common : List Key) {a b : Key} (p q : List Key) (hab : a ≠ b) :
    branching (common ++ a :: p) (common ++ b :: q) = .apart a b := by
  induction common with
  | nil => exact if_neg hab
  | cons key common ih => rw [List.cons_append, List.cons_append, branching_cons, ih]

theorem eq_of_branching_same {p q : List Key} (h : branching p q = .same) : p = q := by
  fun_induction branching p q with
  | case1 => rfl
  | case2 => cases h
  | case3 => cases h
  | case4 p a q ih => rw [ih h]
  | case5 => cases h

theorem exists_of_branching_above {p q : List Key} {next : Key}
    (h : branching p q = .above next) : ∃ rest, q = p ++ next :: rest := by
  fun_induction branching p q with
  | case1 => cases h
  | case2 k q => cases h; exact ⟨q, rfl⟩
  | case3 => cases h
  | case4 p a q ih =>
    obtain ⟨rest, rfl⟩ := ih h
    exact ⟨rest, rfl⟩
  | case5 => cases h

theorem exists_of_branching_below {p q : List Key} {next : Key}
    (h : branching p q = .below next) : ∃ rest, p = q ++ next :: rest := by
  apply exists_of_branching_above (p := q)
  rw [branching_swap, h, Branching.swap]

theorem exists_of_branching_apart {p q : List Key} {a b : Key}
    (h : branching p q = .apart a b) :
    ∃ common p' q', p = common ++ a :: p' ∧ q = common ++ b :: q' := by
  fun_induction branching p q with
  | case1 => cases h
  | case2 => cases h
  | case3 => cases h
  | case4 p k q ih =>
    obtain ⟨common, p', q', rfl, rfl⟩ := ih h
    exact ⟨k :: common, p', q', rfl, rfl⟩
  | case5 a p b q hab => cases h; exact ⟨[], p, q, rfl, rfl⟩

/-- Whether one of the templates ends in an optional catch-all at this key path. -/
def EndsOptionally (all : List Standing) (path : List Key) : Prop :=
  ∃ s ∈ all, s.path = path ∧ s.rank = Kind.optionalCatchAll.rank

/-- Whether a template comes after those that go on from its key path with `next`: it is a
catch-all, or an optional catch-all ends at its key path, or one ends in the slot there and `next`
is a literal. -/
def Standing.Yields (all : List Standing) (s : Standing) (next : Key) : Prop :=
  s.rank = Kind.catchAll.rank ∨ EndsOptionally all s.path ∨
    (next ≠ .slot ∧ EndsOptionally all (s.path ++ [.slot]))

/-- Whether one template may stand before another in the canonical order of `all`. -/
def Precedes (all : List Standing) (s t : Standing) : Prop :=
  match branching s.path t.path with
  | .same => s.rank < t.rank ∨ (s.rank = t.rank ∧ s.raw ≤ t.raw)
  | .above next => ¬ s.Yields all next
  | .below next => t.Yields all next
  | .apart a b => a.Before b

section Cases

variable {all : List Standing} {s t : Standing}

theorem precedes_iff_of_same (h : s.path = t.path) :
    Precedes all s t ↔ s.rank < t.rank ∨ (s.rank = t.rank ∧ s.raw ≤ t.raw) := by
  rw [Precedes, h, branching_self]

theorem precedes_iff_of_above {next : Key} (h : branching s.path t.path = .above next) :
    Precedes all s t ↔ ¬ s.Yields all next := by
  rw [Precedes, h]

theorem precedes_iff_of_below {next : Key} (h : branching s.path t.path = .below next) :
    Precedes all s t ↔ t.Yields all next := by
  rw [Precedes, h]

theorem precedes_iff_of_apart {a b : Key} (h : branching s.path t.path = .apart a b) :
    Precedes all s t ↔ a.Before b := by
  rw [Precedes, h]

end Cases

/-- The law decides between any two templates that differ in what it looks at. -/
theorem Precedes.antisymm {all : List Standing} {s t : Standing} (hst : Precedes all s t)
    (hts : Precedes all t s) : s = t := by
  have hswap := branching_swap s.path t.path
  cases hb : branching s.path t.path with
  | same =>
    have hpath := eq_of_branching_same hb
    rw [precedes_iff_of_same hpath] at hst
    rw [precedes_iff_of_same hpath.symm] at hts
    have hrank : s.rank = t.rank := by omega
    have hraw : s.raw = t.raw := by
      rcases hst with h | ⟨_, h⟩
      · omega
      rcases hts with h' | ⟨_, h'⟩
      · omega
      exact String.le_antisymm h h'
    cases s
    cases t
    simp_all
  | above next =>
    rw [hb] at hswap
    exact absurd ((precedes_iff_of_below hswap).mp hts) ((precedes_iff_of_above hb).mp hst)
  | below next =>
    rw [hb] at hswap
    exact absurd ((precedes_iff_of_below hb).mp hst) ((precedes_iff_of_above hswap).mp hts)
  | apart a b =>
    rw [hb] at hswap
    exact absurd ((precedes_iff_of_apart hswap).mp hts) ((precedes_iff_of_apart hb).mp hst).asymm

/-- Below a child the law is the parent's law. -/
theorem precedes_under_iff {all below : List Standing} {key : Key}
    (h : ∀ path, EndsOptionally all (key :: path) ↔ EndsOptionally below path) (s t : Standing) :
    Precedes all (s.under key) (t.under key) ↔ Precedes below s t := by
  have hyields (s : Standing) (next : Key) :
      (s.under key).Yields all next ↔ s.Yields below next := by
    simp only [Standing.Yields, rank_under, path_under, List.cons_append, h]
  unfold Precedes
  simp only [path_under, rank_under, raw_under, branching_cons, hyields]

/-- Of the templates the law looks only at where those with an optional catch-all end. -/
theorem precedes_congr_of_ends {all all' : List Standing}
    (h : ∀ path, EndsOptionally all path ↔ EndsOptionally all' path) (s t : Standing) :
    Precedes all s t ↔ Precedes all' s t := by
  unfold Precedes Standing.Yields
  simp only [h]

/-- The law looks only at which templates there are. -/
theorem precedes_congr {all all' : List Standing} (h : ∀ s, s ∈ all ↔ s ∈ all') (s t : Standing) :
    Precedes all s t ↔ Precedes all' s t :=
  precedes_congr_of_ends (fun path => by simp only [EndsOptionally, h]) s t

end PathRouter
