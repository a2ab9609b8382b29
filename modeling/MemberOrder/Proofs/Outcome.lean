/-!
# Outcomes

Steps in a row succeed if each of them does (`bind_eq_ok_iff`). What a step may give and how it may
fail is carried along a row of steps, with a state between them or without one (`Settles.bind`,
`Runs.bind`, `Keeps.bind`).
-/

namespace MemberOrder

theorem bind_eq_ok_iff {ε α β : Type} {first : Except ε α} {next : α → Except ε β} {result : β} :
    (first >>= next) = .ok result ↔ ∃ value, first = .ok value ∧ next value = .ok result := by
  cases first with
  | error fault =>
      constructor
      · intro continued
        cases continued
      · rintro ⟨value, stopped, -⟩
        cases stopped
  | ok value =>
      constructor
      · intro continued
        exact ⟨value, rfl, continued⟩
      · rintro ⟨other, same, continued⟩
        cases same
        exact continued

theorem eq_ok_of_toOption {ε α : Type} {outcome : Except ε α} {value : α}
    (found : outcome.toOption = some value) : outcome = .ok value := by
  cases outcome with
  | error fault => cases found
  | ok given =>
      cases found
      rfl

section Settles

variable {ε α β : Type} {good : α → Prop} {good' : β → Prop} {bad : ε → Prop}

/-- Whether an outcome is of one kind if it is a success and of another if it is a failure. -/
inductive Settles (good : α → Prop) (bad : ε → Prop) : Except ε α → Prop
  | ok {value : α} (holds : good value) : Settles good bad (.ok value)
  | error {fault : ε} (holds : bad fault) : Settles good bad (.error fault)

theorem Settles.good_of_ok {value : α} : Settles good bad (.ok value : Except ε α) → good value
  | .ok holds => holds

theorem Settles.bad_of_error {fault : ε} : Settles good bad (.error fault : Except ε α) → bad fault
  | .error holds => holds

theorem settles_any (outcome : Except ε α) : Settles (fun _ => True) (fun _ => True) outcome := by
  cases outcome with
  | error _ => exact .error trivial
  | ok _ => exact .ok trivial

theorem Settles.bind {first : Except ε α} {next : α → Except ε β} (starts : Settles good bad first)
    (continues : ∀ value, good value → Settles good' bad (next value)) :
    Settles good' bad (first >>= next) := by
  cases starts with
  | ok holds => exact continues _ holds
  | error holds => exact .error holds

theorem Settles.mono {outcome : Except ε α} {weaker : α → Prop} (settled : Settles good bad outcome)
    (weakens : ∀ value, good value → weaker value) : Settles weaker bad outcome := by
  cases settled with
  | ok holds => exact .ok (weakens _ holds)
  | error holds => exact .error holds

theorem Settles.excuse {outcome : Except ε α} {lax : ε → Prop} (settled : Settles good bad outcome)
    (excuses : ∀ fault, bad fault → lax fault) : Settles good lax outcome := by
  cases settled with
  | ok holds => exact .ok holds
  | error holds => exact .error (excuses _ holds)

theorem settles_mapM {items : List α} {step : α → Except ε β}
    (each : ∀ item ∈ items, Settles (fun _ => True) bad (step item)) :
    Settles (fun results => results.length = items.length) bad (items.mapM step) := by
  induction items with
  | nil => exact .ok rfl
  | cons item rest ih =>
      rw [List.mapM_cons]
      exact (each item List.mem_cons_self).bind fun _ _ =>
        (ih fun other member => each other (List.mem_cons_of_mem _ member)).bind fun _ length =>
          .ok (congrArg (· + 1) length)

end Settles

section Runs

variable {ε σ α β : Type} {before before' : σ → Prop} {after : α → σ → Prop}
  {after' : β → σ → Prop} {bad : ε → Prop}

/-- Whether a step that changes a state, begun in a state of one kind, ends in a value and a state
of another, or fails with a fault of a third. -/
def Runs (before : σ → Prop) (after : α → σ → Prop) (bad : ε → Prop)
    (step : StateT σ (Except ε) α) : Prop :=
  ∀ s, before s → Settles (fun result => after result.1 result.2) bad (step.run s)

theorem Runs.bind {first : StateT σ (Except ε) α} {next : α → StateT σ (Except ε) β}
    (starts : Runs before after bad first)
    (continues : ∀ value, Runs (after value) after' bad (next value)) :
    Runs before after' bad (first >>= next) :=
  fun s begun => (starts s begun).bind fun result held => continues result.1 result.2 held

theorem Runs.pure {value : α} (holds : ∀ s, before s → after value s) :
    Runs before after bad (Pure.pure value : StateT σ (Except ε) α) :=
  fun s begun => .ok (holds s begun)

theorem Runs.mono {step : StateT σ (Except ε) α} {weaker : α → σ → Prop}
    (runs : Runs before after bad step) (strengthens : ∀ s, before' s → before s)
    (weakens : ∀ value s, after value s → weaker value s) : Runs before' weaker bad step :=
  fun s begun => (runs s (strengthens s begun)).mono fun result held =>
    weakens result.1 result.2 held

/-- Whether a step keeps a property of the state, gives a value of one kind if it succeeds and
fails with a fault of another. -/
abbrev Keeps (holds : σ → Prop) (good : α → Prop) (bad : ε → Prop)
    (step : StateT σ (Except ε) α) : Prop :=
  Runs holds (fun value s => good value ∧ holds s) bad step

section Keeps

variable {holds : σ → Prop} {good : α → Prop} {good' : β → Prop}

theorem Keeps.bind {first : StateT σ (Except ε) α} {next : α → StateT σ (Except ε) β}
    (starts : Keeps holds good bad first)
    (continues : ∀ value, good value → Keeps holds good' bad (next value)) :
    Keeps holds good' bad (first >>= next) :=
  Runs.bind starts fun value s kept => continues value kept.1 s kept.2

theorem keeps_pure {value : α} (fits : good value) :
    Keeps holds good bad (Pure.pure value : StateT σ (Except ε) α) :=
  Runs.pure fun _ kept => ⟨fits, kept⟩

theorem keeps_get {next : σ → StateT σ (Except ε) α}
    (continues : ∀ s, holds s → Keeps holds good bad (next s)) :
    Keeps holds good bad (get >>= next) :=
  fun s kept => continues s kept s kept

theorem keeps_forM {items : List α} {step : α → StateT σ (Except ε) PUnit}
    (each : ∀ item, Keeps holds (fun _ => True) bad (step item)) :
    Keeps holds (fun _ => True) bad (items.forM step) := by
  induction items with
  | nil => exact keeps_pure trivial
  | cons item rest ih => exact (each item).bind fun _ _ => ih

theorem keeps_mapM {items : List α} {step : α → StateT σ (Except ε) β}
    (each : ∀ item, Keeps holds (fun _ => True) bad (step item)) :
    Keeps holds (fun _ => True) bad (items.mapM step) := by
  induction items with
  | nil => exact keeps_pure trivial
  | cons item rest ih =>
      rw [List.mapM_cons]
      exact (each item).bind fun _ _ => ih.bind fun _ _ => keeps_pure trivial

theorem keeps_findM? {items : List α} {test : α → StateT σ (Except ε) Bool}
    (each : ∀ item, Keeps holds (fun _ => True) bad (test item)) :
    Keeps holds (fun _ => True) bad (items.findM? test) := by
  induction items with
  | nil => exact keeps_pure trivial
  | cons item rest ih =>
      refine (each item).bind fun found _ => ?_
      cases found with
      | true => exact keeps_pure trivial
      | false => exact ih

end Keeps

end Runs

end MemberOrder
