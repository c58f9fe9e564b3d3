/-!
# States that are kept in place

A function that returns a new state or an error has no state to show where it fails. A program that
keeps its state in place stores piece by piece, and what it stored before an error stays stored.
Such a program realizes a function where it ends in the new state, and in the old one on an error.
Of several programs, one after another, those before the first that fails keep what they stored.
-/
namespace UtxoLedger.InPlace

variable {ε σ α : Type}

/-- A program stores what a result leaves, and leaves the state alone where that is an error. -/
def Realizes (program : EStateM ε σ α) (state : σ) (result : Except ε (α × σ)) : Prop :=
  program.run state =
    match result with
    | .ok (value, next) => .ok value next
    | .error error => .error error state

/-- What a program leaves, whether or not it fails. -/
def leaves (program : EStateM ε σ α) (state : σ) : σ :=
  match program.run state with
  | .ok _ next => next
  | .error _ left => left

section Realizes

variable {program : EStateM ε σ α} {state : σ} {result : Except ε (α × σ)}
  (realizes : Realizes program state result)
include realizes

theorem Realizes.leaves_eq :
    leaves program state = (result.map Prod.snd).toOption.getD state := by
  unfold leaves
  rw [realizes]
  cases result with
  | error error => rfl
  | ok found => rfl

theorem Realizes.ok_iff {value : α} {next : σ} :
    program.run state = .ok value next ↔ result = .ok (value, next) := by
  rw [realizes]
  cases result with
  | error error => simp
  | ok found => simp [Prod.ext_iff]

theorem Realizes.error_iff {error : ε} {left : σ} :
    program.run state = .error error left ↔ result = .error error ∧ left = state := by
  rw [realizes]
  cases result with
  | error error => simp [eq_comm]
  | ok found => simp

end Realizes

/-- A computation in front that stores nothing is the same on both sides. -/
theorem realizes_bind {β : Type} {computed : Except ε β} {state : σ}
    {program : β → EStateM ε σ α} {next : β → Except ε (α × σ)}
    (rest : ∀ value, Realizes (program value) state (next value)) :
    Realizes (MonadExcept.ofExcept computed >>= program) state (computed >>= next) := by
  cases computed with
  | error error => rfl
  | ok value => exact rest value

section Each

variable {β : Type} {act : β → EStateM ε σ Unit} {item : β} {items : List β} {start final : σ}
  {error : ε}

theorem forM_cons_ok_iff :
    ((item :: items).forM act).run start = .ok () final ↔
      ∃ next, (act item).run start = .ok () next ∧ (items.forM act).run next = .ok () final := by
  change EStateM.run (act item >>= fun _ => items.forM act) start = _ ↔ _
  rw [EStateM.run_bind]
  cases (act item).run start with
  | ok _ next => simp
  | error error left => simp

theorem forM_cons_error_iff :
    ((item :: items).forM act).run start = .error error final ↔
      (act item).run start = .error error final ∨
      ∃ next, (act item).run start = .ok () next ∧
        (items.forM act).run next = .error error final := by
  change EStateM.run (act item >>= fun _ => items.forM act) start = _ ↔ _
  rw [EStateM.run_bind]
  cases (act item).run start with
  | ok _ next => simp
  | error error left => simp

/-- Programs one after another fail where one of them does, after all before it have run. -/
theorem forM_error_iff :
    (items.forM act).run start = .error error final ↔
      ∃ before item after reached, items = before ++ item :: after ∧
        (before.forM act).run start = .ok () reached ∧
        (act item).run reached = .error error final := by
  induction items generalizing start with
  | nil =>
    constructor
    · intro failed
      cases failed
    · rintro ⟨before, _, _, _, parts, -, -⟩
      simp at parts
  | cons first rest ih =>
    rw [forM_cons_error_iff]
    constructor
    · rintro (failed | ⟨next, ran, later⟩)
      · exact ⟨[], first, rest, start, rfl, rfl, failed⟩
      · obtain ⟨before, item, after, reached, rfl, passed, failed⟩ := ih.mp later
        exact ⟨first :: before, item, after, reached, rfl,
          forM_cons_ok_iff.mpr ⟨next, ran, passed⟩, failed⟩
    · rintro ⟨before, item, after, reached, parts, passed, failed⟩
      cases before with
      | nil =>
        cases parts
        cases passed
        exact .inl failed
      | cons other before =>
        cases parts
        obtain ⟨next, ran, passed⟩ := forM_cons_ok_iff.mp passed
        exact .inr ⟨next, ran, ih.mpr ⟨before, item, after, reached, rfl, passed, failed⟩⟩

end Each

end UtxoLedger.InPlace
