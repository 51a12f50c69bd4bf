import PathRouter.Template.Strict

/-!
# Reading routes

Reading a route gives its template or refuses it, and several routes are read if each of them is.
Strict reading changes no template.
-/
namespace PathRouter.Template

theorem validate_eq_ok_iff {template read : Template} :
    template.validate = .ok read ↔ template.defect? = none ∧ read = template := by
  unfold validate
  cases template.defect? with
  | none => simp [eq_comm]
  | some defect => simp

theorem eq_parse_of_read {settings : Settings} {raw : String} {template : Template}
    (h : read settings raw = .ok template) : template = parse raw := by
  unfold read at h
  split at h
  · exact (validate_eq_ok_iff.mp h).2
  · exact (Except.ok.inj h).symm

theorem readAll_eq_ok_iff {settings : Settings} {routes : List String}
    {templates : List Template} :
    readAll settings routes = .ok templates ↔
      templates = routes.map parse ∧ ∀ raw ∈ routes, read settings raw = .ok (parse raw) := by
  unfold readAll
  induction routes generalizing templates with
  | nil => simp [pure, Except.pure, eq_comm]
  | cons raw rest ih =>
    rw [List.mapM_cons]
    constructor
    · intro h
      cases hread : read settings raw with
      | error fault => simp [hread, bind, Except.bind] at h
      | ok template =>
        obtain rfl := eq_parse_of_read hread
        cases hrest : rest.mapM (read settings) with
        | error fault => simp [hread, hrest, bind, Except.bind] at h
        | ok others =>
          obtain ⟨rfl, hothers⟩ := ih.mp hrest
          simp only [hread, hrest, bind, Except.bind, pure, Except.pure] at h
          exact ⟨(Except.ok.inj h).symm, List.forall_mem_cons.mpr ⟨hread, hothers⟩⟩
    · intro hall
      obtain ⟨rfl, h⟩ := hall
      obtain ⟨hread, hothers⟩ := List.forall_mem_cons.mp h
      simp only [hread, ih.mpr ⟨rfl, hothers⟩, bind, Except.bind, pure, Except.pure, List.map_cons]

/-- The routes are read up to the first one that is refused. -/
theorem readAll_of_refused {settings : Settings} {front back : List String} {bad : String}
    {fault : Fault} (hfront : ∀ raw ∈ front, read settings raw = .ok (parse raw))
    (hbad : read settings bad = .error fault) :
    readAll settings (front ++ bad :: back) = .error fault := by
  have hpassed : front.mapM (read settings) = .ok (front.map parse) :=
    readAll_eq_ok_iff.mpr ⟨rfl, hfront⟩
  unfold readAll
  rw [List.mapM_append, hpassed, List.mapM_cons, hbad]
  rfl

theorem exists_first_refused {settings : Settings} {routes : List String}
    (h : ¬ ∀ raw ∈ routes, read settings raw = .ok (parse raw)) :
    ∃ front bad back, routes = front ++ bad :: back ∧
      (∀ raw ∈ front, read settings raw = .ok (parse raw)) ∧
      read settings bad ≠ .ok (parse bad) := by
  induction routes with
  | nil => exact absurd (List.forall_mem_nil _) h
  | cons raw routes ih =>
    by_cases hraw : read settings raw = .ok (parse raw)
    · obtain ⟨front, bad, back, rfl, hfront, hbad⟩ :=
        ih fun hroutes => h (List.forall_mem_cons.mpr ⟨hraw, hroutes⟩)
      exact ⟨raw :: front, bad, back, rfl, List.forall_mem_cons.mpr ⟨hraw, hfront⟩, hbad⟩
    · exact ⟨[], raw, routes, rfl, List.forall_mem_nil _, hraw⟩

/-- A template that is refused is named by the fault. -/
theorem exists_reason_of_validate {template : Template}
    (h : template.validate ≠ .ok template) :
    ∃ reason, template.validate = .error (.invalidRoute template.raw reason) := by
  unfold validate at h ⊢
  cases hdefect : template.defect? with
  | none => exact absurd (by rw [hdefect]) h
  | some defect => exact ⟨defect.reason, rfl⟩

theorem exists_reason_of_read {settings : Settings} {raw : String}
    (h : read settings raw ≠ .ok (parse raw)) :
    ∃ reason, read settings raw = .error (.invalidRoute raw reason) := by
  unfold read at h ⊢
  split
  · rename_i hstrict
    rw [if_pos hstrict] at h
    exact exists_reason_of_validate h
  · rename_i hstrict
    rw [if_neg hstrict] at h
    exact absurd rfl h

/-- Reading fails for no other cause than a route that is refused. -/
theorem exists_refused_of_readAll {settings : Settings} {routes : List String} {fault : Fault}
    (h : readAll settings routes = .error fault) :
    ∃ route ∈ routes, ∃ reason, fault = .invalidRoute route reason := by
  have hrefused : ¬ ∀ raw ∈ routes, read settings raw = .ok (parse raw) := by
    intro hall
    rw [readAll_eq_ok_iff.mpr ⟨rfl, hall⟩] at h
    cases h
  obtain ⟨front, bad, back, rfl, hfront, hbad⟩ := exists_first_refused hrefused
  obtain ⟨reason, hreason⟩ := exists_reason_of_read hbad
  rw [readAll_of_refused hfront hreason] at h
  exact ⟨bad, List.mem_append_right _ List.mem_cons_self, reason, (Except.error.inj h).symm⟩

theorem not_mem_of_mem_splitOn {text part : List Char} (h : part ∈ text.splitOn '/') :
    '/' ∉ part := by
  induction text generalizing part with
  | nil =>
    rw [List.splitOn_nil, List.mem_singleton] at h
    rw [h]
    exact List.not_mem_nil
  | cons c text ih =>
    rw [List.splitOn_cons_eq_if_modifyHead] at h
    split at h
    · rcases List.mem_cons.mp h with rfl | h
      · exact List.not_mem_nil
      · exact ih h
    · rename_i hc
      cases hsplit : text.splitOn '/' with
      | nil => exact absurd hsplit (List.splitOn_ne_nil _ _)
      | cons first others =>
        rw [hsplit] at h ih
        rcases List.mem_cons.mp h with rfl | h
        · intro hmem
          rcases List.mem_cons.mp hmem with rfl | hmem
          · exact hc (beq_self_eq_true _)
          · exact ih List.mem_cons_self hmem
        · exact ih (List.mem_cons_of_mem _ h)

theorem map_value_parse (raw : String) :
    (parse raw).segments.map (fun s => s.value.toList) = raw.toList.tail.splitOn '/' := by
  rw [parse, List.map_map]
  exact (List.map_congr_left fun part _ => by simp).trans (List.map_id _)

/-- No segment of a template that was read holds a slash. -/
theorem slash_not_mem_value {raw : String} {segment : Segment}
    (h : segment ∈ (parse raw).segments) : '/' ∉ segment.value.toList := by
  have hpart := List.mem_map_of_mem (f := fun s : Segment => s.value.toList) h
  rw [map_value_parse] at hpart
  exact not_mem_of_mem_splitOn hpart

end PathRouter.Template
