import InfoScreen.Failure

/-!
# Computing with outcomes

An outcome is a value if every step it is made of has one.  The lemmas below take a successful
computation apart into its steps, and put a successful fold together from an invariant that every
step keeps.  Where a computation faults is told in the same way, from where its steps do.
-/

namespace InfoScreen

namespace Outcome

variable {α β : Type}

theorem bind_eq_ok {x : Outcome α} {f : α → Outcome β} {b : β} :
    (x >>= f) = .ok b ↔ ∃ a, x = .ok a ∧ f a = .ok b := by
  cases x with
  | error e =>
    constructor
    · intro h
      exact absurd h (by simp [bind, Except.bind])
    · rintro ⟨a, ha, -⟩
      exact absurd ha (by simp)
  | ok a =>
    constructor
    · intro h
      exact ⟨a, rfl, h⟩
    · rintro ⟨a', ha, hf⟩
      cases ha
      exact hf

/-- A check has one value only, so what follows it does not depend on the value. -/
theorem check_bind_eq_ok {x : Outcome Unit} {f : Unit → Outcome β} {b : β} :
    (x >>= f) = .ok b ↔ x = .ok () ∧ f () = .ok b := by
  rw [bind_eq_ok]
  constructor
  · rintro ⟨⟨⟩, hx, hf⟩
    exact ⟨hx, hf⟩
  · rintro ⟨hx, hf⟩
    exact ⟨(), hx, hf⟩

@[simp]
theorem ok_bind (a : α) (f : α → Outcome β) : ((Except.ok a : Outcome α) >>= f) = f a := rfl

@[simp]
theorem pure_eq_ok {a b : α} : (pure a : Outcome α) = .ok b ↔ a = b := by
  constructor
  · intro h
    exact Except.ok.inj h
  · rintro rfl
    rfl

theorem pure_pair_eq_ok {a a' : α} {b b' : β} :
    (pure (a, b) : Outcome (α × β)) = .ok (a', b') ↔ a = a' ∧ b = b' := by
  rw [pure_eq_ok, Prod.mk.injEq]

/-- A computation fails in its first step, or in the rest after that has succeeded. -/
theorem bind_eq_error {x : Outcome α} {f : α → Outcome β} {failure : Failure} :
    (x >>= f) = .error failure ↔
      x = .error failure ∨ ∃ a, x = .ok a ∧ f a = .error failure := by
  cases x with
  | error other => simp [bind, Except.bind]
  | ok a => simp

@[simp]
theorem pure_ne_error (a : α) (failure : Failure) : (pure a : Outcome α) ≠ .error failure := nofun

theorem map_eq_ok {x : Outcome α} {f : α → β} {b : β} :
    x.map f = .ok b ↔ ∃ a, x = .ok a ∧ f a = b := by
  cases x <;> simp [Except.map]

theorem map_eq_error {x : Outcome α} {f : α → β} {failure : Failure} :
    x.map f = .error failure ↔ x = .error failure := by
  cases x <;> simp [Except.map]

@[simp]
theorem refuse_ne_ok (error : CompileError) (a : α) : refuse error ≠ .ok a := by
  simp [refuse]

@[simp]
theorem halt_ne_ok (fault : Fault) (a : α) : halt fault ≠ .ok a := by
  simp [halt]

/-- A guard in front of a computation holds where the computation has a value. -/
theorem guard_eq_ok {p : Prop} [Decidable p] {e x : Outcome α} {a : α} (he : e ≠ .ok a) :
    (if p then e else x) = .ok a ↔ ¬p ∧ x = .ok a := by
  by_cases hp : p <;> simp [hp, he]

theorem guard_refuse_eq_ok {p : Prop} [Decidable p] {error : CompileError} {x : Outcome α} {a : α} :
    (if p then refuse error else x) = .ok a ↔ ¬p ∧ x = .ok a :=
  guard_eq_ok (refuse_ne_ok _ _)

theorem guard_halt_eq_ok {p : Prop} [Decidable p] {fault : Fault} {x : Outcome α} {a : α} :
    (if p then halt fault else x) = .ok a ↔ ¬p ∧ x = .ok a :=
  guard_eq_ok (halt_ne_ok _ _)

/-- A fold whose every step succeeds and keeps an invariant succeeds, and keeps it.  The invariant
may speak of the number of elements done so far. -/
theorem foldlM_of_invariant (Invariant : Nat → β → Prop) (f : β → α → Outcome β) (list : List α)
    (hstep : ∀ i, ∀ h : i < list.length, ∀ b, Invariant i b →
      ∃ next, f b list[i] = .ok next ∧ Invariant (i + 1) next)
    (b : β) (hstart : Invariant 0 b) :
    ∃ last, list.foldlM f b = .ok last ∧ Invariant list.length last := by
  induction list generalizing Invariant b with
  | nil => exact ⟨b, rfl, hstart⟩
  | cons a rest ih =>
    obtain ⟨next, hnext, hinvariant⟩ := hstep 0 (by simp) b hstart
    obtain ⟨last, hlast, hend⟩ := ih (fun i ↦ Invariant (i + 1))
      (fun i hi b hb ↦ hstep (i + 1) (Nat.succ_lt_succ hi) b hb) next hinvariant
    refine ⟨last, ?_, hend⟩
    rw [List.foldlM_cons]
    exact bind_eq_ok.mpr ⟨next, hnext, hlast⟩

/-- A fold that succeeds keeps every invariant of its steps. -/
theorem foldlM_invariant (Invariant : β → Prop) (f : β → α → Outcome β) (list : List α)
    (hstep : ∀ a ∈ list, ∀ b next, Invariant b → f b a = .ok next → Invariant next)
    {b last : β} (hstart : Invariant b) (hlast : list.foldlM f b = .ok last) :
    Invariant last := by
  induction list generalizing b with
  | nil =>
    rw [List.foldlM_nil, pure_eq_ok] at hlast
    exact hlast ▸ hstart
  | cons a rest ih =>
    rw [List.foldlM_cons, bind_eq_ok] at hlast
    obtain ⟨next, hnext, hrest⟩ := hlast
    exact ih (fun a' ha ↦ hstep a' (List.mem_cons_of_mem a ha))
      (hstep a List.mem_cons_self b next hstart hnext) hrest

/-- A fold fails in the first step that fails, in the state that the steps before it lead to. -/
theorem foldlM_eq_error_iff {f : β → α → Outcome β} {list : List α} {b : β} {failure : Failure} :
    list.foldlM f b = .error failure ↔ ∃ before a after state, list = before ++ a :: after ∧
      before.foldlM f b = .ok state ∧ f state a = .error failure := by
  induction list generalizing b with
  | nil =>
    refine ⟨fun h ↦ absurd h (pure_ne_error b failure), ?_⟩
    rintro ⟨before, a, after, state, hlist, -⟩
    simp at hlist
  | cons first rest ih =>
    rw [List.foldlM_cons, bind_eq_error]
    constructor
    · rintro (hfirst | ⟨next, hnext, hrest⟩)
      · exact ⟨[], first, rest, b, rfl, rfl, hfirst⟩
      · obtain ⟨before, a, after, state, rfl, hbefore, ha⟩ := ih.mp hrest
        refine ⟨first :: before, a, after, state, rfl, ?_, ha⟩
        rw [List.foldlM_cons]
        exact bind_eq_ok.mpr ⟨next, hnext, hbefore⟩
    · rintro ⟨before, a, after, state, hlist, hbefore, ha⟩
      rcases List.cons_eq_append_iff.mp hlist with ⟨rfl, hrest⟩ | ⟨tail, rfl, rfl⟩
      · obtain ⟨rfl, rfl⟩ := List.cons.inj hrest
        obtain rfl := pure_eq_ok.mp hbefore
        exact .inl ha
      · rw [List.foldlM_cons] at hbefore
        obtain ⟨next, hnext, htail⟩ := bind_eq_ok.mp hbefore
        exact .inr ⟨next, hnext, ih.mpr ⟨tail, a, after, state, rfl, htail, ha⟩⟩

section Checks

variable {check : α → Outcome Unit} {list : List α} {failure : Failure}

theorem forM_cons (check : α → Outcome Unit) (a : α) (rest : List α) :
    (a :: rest).forM check = (check a >>= fun _ ↦ rest.forM check) := rfl

theorem forM_eq_ok_iff : list.forM check = .ok () ↔ ∀ a ∈ list, check a = .ok () := by
  induction list with
  | nil => exact ⟨fun _ ↦ nofun, fun _ ↦ rfl⟩
  | cons a rest ih => rw [forM_cons, check_bind_eq_ok, ih, List.forall_mem_cons]

/-- The first check that fails decides the failure. -/
theorem forM_eq_error_iff : list.forM check = .error failure ↔
    ∃ before a after, list = before ++ a :: after ∧ (∀ b ∈ before, check b = .ok ()) ∧
      check a = .error failure := by
  induction list with
  | nil =>
    constructor
    · intro h
      cases h
    · rintro ⟨before, a, after, hlist, -⟩
      simp at hlist
  | cons first rest ih =>
    rw [forM_cons]
    cases hfirst : check first with
    | error other =>
      constructor
      · intro h
        exact ⟨[], first, rest, rfl, by simp, hfirst.trans h⟩
      · rintro ⟨before, a, after, hlist, hbefore, ha⟩
        rcases List.cons_eq_append_iff.mp hlist with ⟨rfl, hrest⟩ | ⟨tail, rfl, -⟩
        · obtain ⟨rfl, rfl⟩ := List.cons.inj hrest
          exact hfirst.symm.trans ha
        · have hok := hbefore first List.mem_cons_self
          rw [hfirst] at hok
          cases hok
    | ok _ =>
      rw [ok_bind, ih]
      constructor
      · rintro ⟨before, a, after, rfl, hbefore, ha⟩
        refine ⟨first :: before, a, after, rfl, ?_, ha⟩
        exact List.forall_mem_cons.mpr ⟨hfirst, hbefore⟩
      · rintro ⟨before, a, after, hlist, hbefore, ha⟩
        rcases List.cons_eq_append_iff.mp hlist with ⟨rfl, hrest⟩ | ⟨tail, rfl, hrest⟩
        · obtain ⟨rfl, rfl⟩ := List.cons.inj hrest
          rw [hfirst] at ha
          cases ha
        · exact ⟨tail, a, after, hrest, fun b hb ↦ hbefore b (List.mem_cons_of_mem _ hb), ha⟩

end Checks

/-! ## Faults -/

variable {fault other : Fault} {error : CompileError} {p : Prop} [Decidable p]

@[simp]
theorem ok_ne_halt (a : α) (fault : Fault) : (Except.ok a : Outcome α) ≠ halt fault := by
  simp [halt]

@[simp]
theorem pure_ne_halt (a : α) (fault : Fault) : (pure a : Outcome α) ≠ halt fault :=
  ok_ne_halt a fault

@[simp]
theorem refuse_ne_halt (error : CompileError) (fault : Fault) :
    (refuse error : Outcome α) ≠ halt fault := by
  simp [refuse, halt]

@[simp]
theorem halt_inj : (halt other : Outcome α) = halt fault ↔ fault = other := by
  simp [halt, eq_comm]

theorem bind_eq_halt {x : Outcome α} {f : α → Outcome β} :
    (x >>= f) = halt fault ↔ x = halt fault ∨ ∃ a, x = .ok a ∧ f a = halt fault := bind_eq_error

theorem check_bind_eq_halt {x : Outcome Unit} {f : Unit → Outcome β} :
    (x >>= f) = halt fault ↔ x = halt fault ∨ x = .ok () ∧ f () = halt fault := by
  rw [bind_eq_halt]
  refine or_congr_right ⟨?_, fun h ↦ ⟨(), h⟩⟩
  rintro ⟨⟨⟩, h⟩
  exact h

theorem map_eq_halt {x : Outcome α} {f : α → β} : x.map f = halt fault ↔ x = halt fault :=
  map_eq_error

/-- A guard that refuses does not fault. -/
theorem guard_refuse_eq_halt {x : Outcome α} :
    (if p then refuse error else x) = halt fault ↔ ¬p ∧ x = halt fault := by
  by_cases hp : p <;> simp [hp]

theorem guard_halt_eq_halt {x : Outcome α} :
    (if p then halt other else x) = halt fault ↔ p ∧ fault = other ∨ ¬p ∧ x = halt fault := by
  by_cases hp : p <;> simp [hp]

/-- A fold none of whose steps faults does not fault. -/
theorem foldlM_ne_halt {f : β → α → Outcome β} (hf : ∀ b a, f b a ≠ halt fault) (list : List α)
    (b : β) : list.foldlM f b ≠ halt fault := by
  induction list generalizing b with
  | nil => exact pure_ne_halt b fault
  | cons a rest ih =>
    rw [List.foldlM_cons, ne_eq, bind_eq_halt]
    rintro (hfirst | ⟨next, -, hrest⟩)
    · exact hf b a hfirst
    · exact ih next hrest

theorem forM_ne_halt {f : α → Outcome Unit} {list : List α} (hf : ∀ a ∈ list, f a ≠ halt fault) :
    list.forM f ≠ halt fault := by
  intro h
  obtain ⟨before, a, after, rfl, -, ha⟩ := forM_eq_error_iff.mp h
  exact hf a (by simp) ha

end Outcome

end InfoScreen
