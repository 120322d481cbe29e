/-!
# Runs

A step function answers an operation and gives the state after it. A run does one
operation after another. What every step keeps, a run keeps, and two systems whose steps
answer alike from related states answer alike over every run.
-/

namespace HardSector.Run

variable {S T Op A : Type}

/-- The state after a list of operations. -/
def final (step : S → Op → A × S) (s : S) (ops : List Op) : S :=
  ops.foldl (fun s op => (step s op).2) s

/-- The answers to a list of operations, in order. -/
def answers (step : S → Op → A × S) : S → List Op → List A
  | _, [] => []
  | s, op :: ops => (step s op).1 :: answers step (step s op).2 ops

@[simp] theorem final_nil (step : S → Op → A × S) (s : S) : final step s [] = s := rfl

@[simp] theorem final_cons (step : S → Op → A × S) (s : S) (op : Op) (ops : List Op) :
    final step s (op :: ops) = final step (step s op).2 ops := rfl

/-- A run through two lists is a run through the first and then through the second. -/
theorem final_append (step : S → Op → A × S) (s : S) (ops ops' : List Op) :
    final step s (ops ++ ops') = final step (final step s ops) ops' :=
  List.foldl_append

/-- The answers to two lists of operations are those to the first and then those to the second. -/
theorem answers_append (step : S → Op → A × S) (s : S) (ops ops' : List Op) :
    answers step s (ops ++ ops') = answers step s ops ++ answers step (final step s ops) ops' := by
  induction ops generalizing s with
  | nil => rfl
  | cons op ops ih =>
    rw [List.cons_append, answers, ih]
    rfl

/-- Every operation is answered. -/
@[simp] theorem length_answers (step : S → Op → A × S) (s : S) (ops : List Op) :
    (answers step s ops).length = ops.length := by
  induction ops generalizing s with
  | nil => rfl
  | cons op ops ih => rw [answers, List.length_cons, List.length_cons, ih]

/-- The operations of a run with their answers, in order. -/
def log (step : S → Op → A × S) (s : S) (ops : List Op) : List (Op × A) :=
  ops.zip (answers step s ops)

/-- A log is of the operations of the run. -/
theorem map_fst_log (step : S → Op → A × S) (s : S) (ops : List Op) :
    (log step s ops).map Prod.fst = ops :=
  List.map_fst_zip (Nat.le_of_eq (length_answers step s ops).symm)

/-- A log grows by an operation and its answer. -/
theorem log_snoc (step : S → Op → A × S) (s : S) (ops : List Op) (op : Op) :
    log step s (ops ++ [op]) = log step s ops ++ [(op, (step (final step s ops) op).1)] := by
  unfold log
  rw [answers_append, List.zip_append (length_answers step s ops).symm]
  rfl

/-- Something came after operations for which it matters what they were, and nothing has ended it
since. -/
def Since (begins : List Op → Op → Prop) (ends : Op → Prop) (ops : List Op) : Prop :=
  ∃ before op later, ops = before ++ op :: later ∧ begins before op ∧ ∀ op' ∈ later, ¬ends op'

/-- Nothing has begun before the first operation. -/
theorem not_since_nil {begins : List Op → Op → Prop} {ends : Op → Prop} :
    ¬Since begins ends [] := by
  rintro ⟨before, op, later, hops, _⟩
  cases before <;> cases hops

/-- Something goes on if it begins with the last operation, or if it went on and the last operation
does not end it. -/
theorem since_snoc {begins : List Op → Op → Prop} {ends : Op → Prop} {ops : List Op} {last : Op} :
    Since begins ends (ops ++ [last]) ↔
      begins ops last ∨ Since begins ends ops ∧ ¬ends last := by
  constructor
  · rintro ⟨before, op, later, hops, hbegins, hkept⟩
    rcases List.eq_nil_or_concat later with rfl | ⟨later, op', rfl⟩
    · obtain ⟨rfl, hlast⟩ := List.append_inj' hops rfl
      obtain rfl := List.singleton_inj.mp hlast
      exact Or.inl hbegins
    · have hops : ops ++ [last] = (before ++ op :: later) ++ [op'] := by simpa using hops
      obtain ⟨rfl, hlast⟩ := List.append_inj' hops rfl
      obtain rfl := List.singleton_inj.mp hlast
      refine Or.inr ⟨⟨before, op, later, rfl, hbegins, fun op' hop' => ?_⟩, ?_⟩
      · exact hkept op' (by simp [hop'])
      · exact hkept last (by simp)
  · rintro (hbegins | ⟨⟨before, op, later, rfl, hbegins, hkept⟩, hlast⟩)
    · exact ⟨ops, last, [], rfl, hbegins, nofun⟩
    · refine ⟨before, op, later ++ [last], by simp, hbegins, fun op' hop' => ?_⟩
      rcases List.mem_append.mp hop' with hop' | hop'
      · exact hkept op' hop'
      · rwa [List.mem_singleton.mp hop']

/-- What every step keeps, a run keeps. -/
theorem final_induct {step : S → Op → A × S} {P : S → Prop} {s : S} {ops : List Op} (hs : P s)
    (hstep : ∀ s, ∀ op ∈ ops, P s → P (step s op).2) : P (final step s ops) := by
  induction ops generalizing s with
  | nil => exact hs
  | cons op ops ih =>
    refine ih (hstep s op List.mem_cons_self hs) fun s op' hop' => ?_
    exact hstep s op' (List.mem_cons_of_mem _ hop')

/-- The operations of a run each meet a condition when their turn comes. -/
def Along (step : S → Op → A × S) (P : S → Op → Prop) : S → List Op → Prop
  | _, [] => True
  | s, op :: ops => P s op ∧ Along step P (step s op).2 ops

/-- What every step keeps whose operation meets a condition, a run keeps along which the operations
meet it. -/
theorem final_of_along {step : S → Op → A × S} {C : S → Op → Prop} {P : S → Prop} {s : S}
    {ops : List Op} (hs : P s) (halong : Along step C s ops)
    (hstep : ∀ s, ∀ op ∈ ops, C s op → P s → P (step s op).2) : P (final step s ops) := by
  induction ops generalizing s with
  | nil => exact hs
  | cons op ops ih =>
    refine ih (hstep s op List.mem_cons_self halong.1 hs) halong.2 fun s op' hop' => ?_
    exact hstep s op' (List.mem_cons_of_mem _ hop')

/-- Operations that always meet a condition meet it along every run. -/
theorem along_of_forall {step : S → Op → A × S} {P : S → Op → Prop} {s : S} {ops : List Op}
    (hops : ∀ s, ∀ op ∈ ops, P s op) : Along step P s ops := by
  induction ops generalizing s with
  | nil => trivial
  | cons op ops ih =>
    exact ⟨hops s op List.mem_cons_self,
      ih fun s op' hop' => hops s op' (List.mem_cons_of_mem _ hop')⟩

/-- Steps that answer alike and keep a relation make runs that do. -/
theorem simulate {step : S → Op → A × S} {step' : T → Op → A × T} {R : S → T → Prop}
    (hstep : ∀ s t op, R s t → (step s op).1 = (step' t op).1 ∧ R (step s op).2 (step' t op).2)
    {s : S} {t : T} (hs : R s t) (ops : List Op) :
    answers step s ops = answers step' t ops ∧ R (final step s ops) (final step' t ops) := by
  induction ops generalizing s t with
  | nil => exact ⟨rfl, hs⟩
  | cons op ops ih =>
    obtain ⟨hanswer, hnext⟩ := hstep s t op hs
    obtain ⟨hanswers, hfinal⟩ := ih hnext
    refine ⟨?_, hfinal⟩
    rw [answers, answers, hanswer, hanswers]

end HardSector.Run
