import Mathlib.Data.List.Infix
import Mathlib.Tactic.Common

/-!
# Runs of labelled transition systems

A transition system is a relation `step s a s'`: in state `s` the label `a` leads to `s'`. `Run` is
its finite runs, with the newest label last, so that an induction over a run always peels off the
step taken last. `Run.invariant` packages the induction of every safety proof. `Along` and `Meets`
speak about the states and the steps inside a run; `along_iff_meets` turns a per-step condition that
is exact for one step into one that is exact for whole runs. The last part is about functions that put
out a list at each step: `Outputs` is what they put out in all, `Puts` what some of the steps do.
-/

namespace Transition

variable {σ α : Type*}

/-- Finite runs from `s`, newest label last. -/
inductive Run (step : σ → α → σ → Prop) (s : σ) : List α → σ → Prop where
  | nil :
    Run step s [] s
  | snoc {l s' a s''} :
    Run step s l s' →
    step s' a s'' →
    Run step s (l ++ [a]) s''

variable {step : σ → α → σ → Prop} {s s' s'' : σ} {l l1 l2 : List α} {a : α}

/-- A property kept by every step holds at the end of every run. -/
theorem Run.invariant {I : σ → Prop} (run : Run step s l s') (base : I s)
    (keep : ∀ {s a s'}, I s → step s a s' → I s') : I s' := by
  induction run with
  | nil => exact base
  | snoc _ st ih => exact keep ih st

/-- The same for a property that also speaks about the labels of the run so far. -/
theorem Run.invariant_labels {I : List α → σ → Prop} (run : Run step s l s') (base : I [] s)
    (keep : ∀ {l s a s'}, I l s → step s a s' → I (l ++ [a]) s') : I l s' := by
  induction run with
  | nil => exact base
  | snoc _ st ih => exact keep ih st

/-- A step is a run. -/
lemma Run.single (st : step s a s') : Run step s [a] s' :=
  .snoc (l := []) .nil st

/-- A run without labels does nothing. -/
lemma Run.nil_inv (run : Run step s [] s') : s' = s := by
  generalize e : ([] : List α) = l0 at run
  cases run with
  | nil => rfl
  | snoc _ _ => simp at e

/-- The last step of a run. -/
lemma Run.snoc_inv (run : Run step s (l ++ [a]) s'') :
    ∃ s', Run step s l s' ∧ step s' a s'' := by
  generalize e : l ++ [a] = l0 at run
  cases run with
  | nil => simp at e
  | snoc run st =>
    obtain ⟨e1, e2⟩ := List.append_inj' e rfl
    cases e1
    cases e2
    exact ⟨_, run, st⟩

/-- A run splits at every point of its label list. -/
lemma Run.split (run : Run step s (l1 ++ l2) s'') :
    ∃ s', Run step s l1 s' ∧ Run step s' l2 s'' := by
  induction l2 using List.reverseRecOn generalizing s'' with
  | nil => exact ⟨s'', by simpa using run, .nil⟩
  | append_singleton l2 a ih =>
    rw [← List.append_assoc] at run
    obtain ⟨s1, run1, st⟩ := run.snoc_inv
    obtain ⟨s2, run2, run3⟩ := ih run1
    exact ⟨s2, run2, .snoc run3 st⟩

/-- A run goes on with another one. -/
lemma Run.append (run1 : Run step s l1 s') (run2 : Run step s' l2 s'') : Run step s (l1 ++ l2) s'' := by
  induction run2 with
  | nil => rwa [List.append_nil]
  | snoc _ st ih =>
    rw [← List.append_assoc]
    exact .snoc ih st

/-- The first step of a run. -/
lemma Run.cons_inv (run : Run step s (a :: l) s'') : ∃ s', step s a s' ∧ Run step s' l s'' := by
  rw [← List.singleton_append] at run
  obtain ⟨s1, run1, run2⟩ := run.split
  obtain ⟨s2, run0, st⟩ := Run.snoc_inv (l := []) run1
  cases run0.nil_inv
  exact ⟨s1, st, run2⟩

/-- The label determines the next state. -/
def Deterministic (step : σ → α → σ → Prop) : Prop :=
  ∀ ⦃s a s1 s2⦄, step s a s1 → step s a s2 → s1 = s2

/-- Runs of a deterministic system are determined by their labels. -/
lemma Run.unique (det : Deterministic step)
    (run1 : Run step s l s') (run2 : Run step s l s'') : s' = s'' := by
  induction run1 generalizing s'' with
  | nil => exact run2.nil_inv.symm
  | snoc _ st ih =>
    obtain ⟨s1, run, st'⟩ := run2.snoc_inv
    cases ih run
    exact det st st'

/-- `P` holds in every state that a run along `l` goes through. -/
def Along (step : σ → α → σ → Prop) (P : σ → Prop) (s : σ) (l : List α) : Prop :=
  ∀ l1 s', l1 <+: l → Run step s l1 s' → P s'

/-- Every step of a run along `l` is taken in a state that meets `C`. -/
def Meets (step : σ → α → σ → Prop) (C : σ → α → Prop) (s : σ) (l : List α) : Prop :=
  ∀ l1 a s', l1 ++ [a] <+: l → Run step s l1 s' → C s' a

/-- If steps that meet `C` keep `P`, runs whose steps all meet `C` stay inside `P`. -/
theorem along_of_meets {P J : σ → Prop} {C : σ → α → Prop} (base : P s) (inv : J s)
    (inv_keep : ∀ {s a s'}, J s → step s a s' → J s')
    (keep : ∀ {s a s'}, J s → P s → C s a → step s a s' → P s')
    (meets : Meets step C s l) : Along step P s l := by
  intro l1 s1 pre run
  induction run with
  | nil => exact base
  | @snoc l1 s1 a s2 run st ih =>
    have p := ih ((List.prefix_append l1 [a]).trans pre)
    exact keep (run.invariant inv inv_keep) p (meets l1 a s1 pre run) st

/-- If moreover steps that miss `C` leave `P`, the condition is exact. -/
theorem along_iff_meets {P J : σ → Prop} {C : σ → α → Prop}
    (det : Deterministic step) (run : Run step s l s') (base : P s) (inv : J s)
    (inv_keep : ∀ {s a s'}, J s → step s a s' → J s')
    (keep : ∀ {s a s'}, J s → P s → C s a → step s a s' → P s')
    (lose : ∀ {s a s'}, J s → P s → ¬ C s a → step s a s' → ¬ P s') :
    Along step P s l ↔ Meets step C s l := by
  refine ⟨fun along l1 a s1 pre run1 => ?_, along_of_meets base inv inv_keep keep⟩
  -- the step after the prefix misses `C`, so its result is outside `P`
  by_contra nc
  obtain ⟨l2, e⟩ := pre
  subst e
  obtain ⟨s2, run2, _⟩ := run.split
  obtain ⟨s3, run3, st⟩ := run2.snoc_inv
  cases Run.unique det run1 run3
  have p := along l1 s1 (by simp) run1
  exact lose (run1.invariant inv inv_keep) p nc st (along _ s2 (List.prefix_append _ _) run2)

/-- The same where the steps need no more than `P` and `C`. -/
lemma Meets.along {P : σ → Prop} {C : σ → α → Prop} (meets : Meets step C s l) (base : P s)
    (keep : ∀ {s a s'}, P s → C s a → step s a s' → P s') : Along step P s l :=
  along_of_meets (J := fun _ => True) base trivial (fun _ _ => trivial) (fun _ => keep) meets

/-- The same for a run that was taken, without an invariant. -/
lemma Run.along_iff {P : σ → Prop} {C : σ → α → Prop} (run : Run step s l s')
    (det : Deterministic step) (base : P s) (keep : ∀ {s a s'}, P s → C s a → step s a s' → P s')
    (lose : ∀ {s a s'}, P s → ¬ C s a → step s a s' → ¬ P s') :
    Along step P s l ↔ Meets step C s l :=
  along_iff_meets (J := fun _ => True) det run base trivial (fun _ _ => trivial) (fun _ => keep)
    (fun _ => lose)

/-- Only the steps that are taken matter. -/
lemma Run.meets_congr {C C' : σ → α → Prop} (run : Run step s l s') (det : Deterministic step)
    (same : ∀ {s a s'}, step s a s' → (C s a ↔ C' s a)) : Meets step C s l ↔ Meets step C' s l := by
  have taken : ∀ l1 a s1, l1 ++ [a] <+: l → Run step s l1 s1 → (C s1 a ↔ C' s1 a) := by
    rintro l1 a s1 ⟨l2, rfl⟩ run1
    obtain ⟨s2, run2, -⟩ := run.split
    obtain ⟨s3, run3, st⟩ := run2.snoc_inv
    cases run1.unique det run3
    exact same st
  exact ⟨fun meets l1 a s1 pre run1 => (taken l1 a s1 pre run1).mp (meets l1 a s1 pre run1),
    fun meets l1 a s1 pre run1 => (taken l1 a s1 pre run1).mpr (meets l1 a s1 pre run1)⟩

/-- One more step. -/
lemma Meets.snoc {C : σ → α → Prop} (meets : Meets step C s l) (det : Deterministic step)
    (run : Run step s l s') (c : C s' a) : Meets step C s (l ++ [a]) := by
  intro l1 b s1 pre run1
  rcases List.prefix_concat_iff.mp pre with e | pre
  · obtain ⟨e1, e2⟩ := List.append_inj' e rfl
    cases e1
    cases e2
    cases Run.unique det run run1
    exact c
  · exact meets l1 b s1 pre run1

/-- A run of one step. -/
lemma Meets.single {C : σ → α → Prop} (det : Deterministic step) (c : C s a) :
    Meets step C s [a] := by
  have none : Meets step C s [] := by
    intro l1 b s1 pre _
    simp at pre
  exact none.snoc det .nil c

/-- If steps that meet `C` keep `G` and the first one that misses it leads into `B`, which is never left,
    then a run that has not come to `B` meets `C`. -/
lemma Run.meets_or {G B : σ → Prop} {C : σ → α → Prop} (run : Run step s l s')
    (det : Deterministic step) (base : G s)
    (keep : ∀ {s a s'}, G s → C s a → step s a s' → G s')
    (lose : ∀ {s a s'}, G s → ¬ C s a → step s a s' → B s')
    (stay : ∀ {s a s'}, B s → step s a s' → B s') : Meets step C s l ∧ G s' ∨ B s' := by
  induction run with
  | nil =>
    refine .inl ⟨fun l1 b s1 pre _ => ?_, base⟩
    simp at pre
  | @snoc l s1 a s2 run st ih =>
    rcases ih with ⟨meets, g⟩ | b
    · by_cases c : C s1 a
      · exact .inl ⟨meets.snoc det run c, keep g c st⟩
      · exact .inr (lose g c st)
    · exact .inr (stay b st)

/-- Here a step that misses `C` need not leave `P` at once: it leads into `B`, which is never left
    and rules out `P` at the end of the run. -/
theorem along_iff_meets_of_last {P G B : σ → Prop} {C : σ → α → Prop}
    (det : Deterministic step) (run : Run step s l s') (base : G s)
    (keep : ∀ {s a s'}, G s → C s a → step s a s' → G s')
    (lose : ∀ {s a s'}, G s → ¬ C s a → step s a s' → B s')
    (stay : ∀ {s a s'}, B s → step s a s' → B s')
    (good : ∀ {s}, G s → P s) (bad : B s' → ¬ P s') :
    Along step P s l ↔ Meets step C s l := by
  constructor
  · intro along
    have p := along l s' (List.prefix_refl l) run
    exact ((run.meets_or det base keep lose stay).resolve_right fun b => bad b p).1
  · intro meets l1 s1 pre run1
    exact good (meets.along base keep l1 s1 pre run1)

/-- The steps that meet `C`. -/
def Within (step : σ → α → σ → Prop) (C : σ → α → Prop) (s : σ) (a : α) (s' : σ) : Prop :=
  C s a ∧ step s a s'

/-- Leaving out steps keeps a system deterministic. -/
lemma Deterministic.within {C : σ → α → Prop} (det : Deterministic step) : Deterministic (Within step C) :=
  fun _ _ _ _ st1 st2 => det st1.2 st2.2

/-- A run whose steps all meet `C` is a run of the steps that meet `C`. -/
lemma Meets.run_within {C : σ → α → Prop} (meets : Meets step C s l) (pre : l1 <+: l) :
    Run (Within step C) s l1 s' ↔ Run step s l1 s' := by
  constructor
  · intro run
    induction run with
    | nil => exact .nil
    | snoc _ st ih => exact .snoc (ih ((List.prefix_append ..).trans pre)) st.2
  · intro run
    induction run with
    | nil => exact .nil
    | snoc run st ih => exact .snoc (ih ((List.prefix_append ..).trans pre)) ⟨meets _ _ _ pre run, st⟩

/-- Where the steps that are left out are not taken, the states are the same. -/
lemma Meets.along_within {P : σ → Prop} {C : σ → α → Prop} (meets : Meets step C s l) :
    Along (Within step C) P s l ↔ Along step P s l := by
  constructor
  · intro along l1 s1 pre run
    exact along l1 s1 pre ((meets.run_within pre).mpr run)
  · intro along l1 s1 pre run
    exact along l1 s1 pre ((meets.run_within pre).mp run)

/-- Where the steps that are left out are not taken, the conditions are the same. -/
lemma Meets.meets_within {C D : σ → α → Prop} (meets : Meets step C s l) :
    Meets (Within step C) D s l ↔ Meets step D s l := by
  constructor
  · intro also l1 a s1 pre run
    exact also l1 a s1 pre ((meets.run_within ((List.prefix_append ..).trans pre)).mpr run)
  · intro also l1 a s1 pre run
    exact also l1 a s1 pre ((meets.run_within ((List.prefix_append ..).trans pre)).mp run)

/-- The step relation of a partial function. -/
def Exec (f : σ → α → Option σ) (s : σ) (a : α) (s' : σ) : Prop :=
  f s a = some s'

/-- A function gives one next state. -/
lemma Exec.deterministic (f : σ → α → Option σ) : Deterministic (Exec f) :=
  fun _ _ _ _ st1 st2 => Option.some.inj (st1.symm.trans st2)

/-- Running a partial function over a list of labels. -/
def exec (f : σ → α → Option σ) (s : σ) (l : List α) : Option σ :=
  l.foldlM f s

/-- A run of a function is its evaluation. -/
lemma run_exec_iff {f : σ → α → Option σ} : Run (Exec f) s l s' ↔ exec f s l = some s' := by
  induction l using List.reverseRecOn generalizing s' with
  | nil =>
    constructor
    · intro run
      rw [run.nil_inv]
      rfl
    · intro e
      cases e
      exact .nil
  | append_singleton l a ih =>
    simp only [exec, List.foldlM_append, List.foldlM_cons, List.foldlM_nil, bind_pure,
      Option.bind_eq_bind, Option.bind_eq_some_iff]
    constructor
    · intro run
      obtain ⟨s1, run, st⟩ := run.snoc_inv
      exact ⟨s1, ih.mp run, st⟩
    · rintro ⟨s1, e, st⟩
      exact .snoc (ih.mpr e) st

/-- What a run leads to is found by evaluating some of it. -/
lemma run_of_map {ρ : Type*} {f : σ → α → Option σ} {g : σ → ρ} {v : ρ}
    (e : (exec f s l).map g = some v) : ∃ s', Run (Exec f) s l s' ∧ g s' = v := by
  obtain ⟨s', last, value⟩ := Option.map_eq_some_iff.mp e
  exact ⟨s', run_exec_iff.mpr last, value⟩

/-- Checks a condition at every step of a run. -/
def check (f : σ → α → Option σ) (C : σ → α → Prop) [∀ s a, Decidable (C s a)] :
    σ → List α → Bool
  | _, [] => true
  | s, a :: l =>
    decide (C s a) &&
      match f s a with
      | some s' => check f C s' l
      | none => true

/-- The condition can be checked along the evaluation. -/
lemma meets_of_check {f : σ → α → Option σ} {C : σ → α → Prop} [∀ s a, Decidable (C s a)]
    (h : check f C s l = true) : Meets (Exec f) C s l := by
  induction l generalizing s with
  | nil =>
    intro l1 b s1 pre _
    simp at pre
  | cons a l ih =>
    rw [check, Bool.and_eq_true, decide_eq_true_iff] at h
    intro l1 b s1 pre run
    cases l1 with
    | nil =>
      cases run.nil_inv
      cases (List.cons_prefix_cons.mp pre).1
      exact h.1
    | cons c l1 =>
      rw [List.cons_append, List.cons_prefix_cons] at pre
      obtain ⟨rfl, pre⟩ := pre
      obtain ⟨s2, st, run⟩ := run.cons_inv
      have rest := h.2
      rw [show f s c = some s2 from st] at rest
      exact ih rest l1 b s1 pre run

/-- A total function runs over every list of labels. -/
lemma exists_run {f : σ → α → Option σ} (total : ∀ s a, (f s a).isSome) (s : σ) (l : List α) :
    ∃ s', Run (Exec f) s l s' := by
  induction l using List.reverseRecOn with
  | nil => exact ⟨s, .nil⟩
  | append_singleton l a ih =>
    obtain ⟨s1, run⟩ := ih
    obtain ⟨s2, st⟩ := Option.isSome_iff_exists.mp (total s1 a)
    exact ⟨s2, .snoc run st⟩

/-- Along an infinite sequence of labels, steps that lower a measure lead to a state in which `P` holds. -/
lemma exists_run_until {G P : σ → Prop} (label : Nat → α) (measure : σ → Nat) (base : G s)
    (next : ∀ {n s'}, Run step s ((List.range n).map label) s' → G s' → ¬ P s' →
      ∃ s'', step s' (label n) s'' ∧ G s'' ∧ measure s'' < measure s') :
    ∃ n s', Run step s ((List.range n).map label) s' ∧ G s' ∧ P s' := by
  have reach : ∀ k n s', Run step s ((List.range n).map label) s' → G s' → measure s' = k →
      ∃ n s', Run step s ((List.range n).map label) s' ∧ G s' ∧ P s' := by
    intro k
    induction k using Nat.strong_induction_on with
    | h k ih =>
      intro n s1 run good size
      by_cases done : P s1
      · exact ⟨n, s1, run, good, done⟩
      · obtain ⟨s2, st, good', less⟩ := next run good done
        refine ih _ (size ▸ less) (n + 1) s2 ?_ good' rfl
        rw [List.range_succ, List.map_append]
        exact .snoc run st
  exact reach _ 0 s .nil base rfl

/-- Running `f` from a state until it has no next step puts out a list. -/
inductive Outputs {ε : Type*} (f : σ → Option (σ × List ε)) : σ → List ε → Prop where
  | stop {s1} :
    f s1 = none →
    Outputs f s1 []
  | next {s1 s2 out rest} :
    f s1 = some (s2, out) →
    Outputs f s2 rest →
    Outputs f s1 (out ++ rest)

/-- A step that puts out nothing. -/
lemma Outputs.silent {ε : Type*} {f : σ → Option (σ × List ε)} {out : List ε}
    (st : f s = some (s', [])) (rest : Outputs f s' out) : Outputs f s out :=
  .next st rest

/-- Some steps of `f` put out a list. -/
inductive Puts {ε : Type*} (f : σ → Option (σ × List ε)) : σ → List ε → σ → Prop where
  | done {s1} :
    Puts f s1 [] s1
  | next {s1 s2 s3 out rest} :
    f s1 = some (s2, out) →
    Puts f s2 rest s3 →
    Puts f s1 (out ++ rest) s3

/-- A step that puts out nothing is passed over. -/
lemma Puts.silent {ε : Type*} {f : σ → Option (σ × List ε)} {out : List ε}
    (st : f s = some (s', [])) (rest : Puts f s' out s'') : Puts f s out s'' :=
  .next st rest

/-- One step puts out what it puts out. -/
lemma Puts.single {ε : Type*} {f : σ → Option (σ × List ε)} {out : List ε}
    (st : f s = some (s', out)) : Puts f s out s' := by
  rw [← List.append_nil out]
  exact .next st .done

/-- What is put out first comes first. -/
lemma Puts.outputs {ε : Type*} {f : σ → Option (σ × List ε)} {out rest : List ε}
    (puts : Puts f s out s') (outputs : Outputs f s' rest) : Outputs f s (out ++ rest) := by
  induction puts with
  | done => exact outputs
  | next st _ ih =>
    rw [List.append_assoc]
    exact .next st (ih outputs)

/-- A loop over a list of items puts out what it does for one item after the other. -/
lemma Outputs.flatMap {ε τ : Type*} {f : σ → Option (σ × List ε)} (load : List τ → σ)
    {out : τ → List ε} {items : List τ} (stop : Outputs f (load []) [])
    (each : ∀ t ∈ items, ∀ rest, Puts f (load (t :: rest)) (out t) (load rest)) :
    Outputs f (load items) (items.flatMap out) := by
  induction items with
  | nil => exact stop
  | cons t items ih =>
    rw [List.flatMap_cons]
    have later := ih fun t' mem => each t' (List.mem_cons_of_mem _ mem)
    exact (each t List.mem_cons_self items).outputs later

/-- Inside `I` there always is a next step, so there is no such list. -/
lemma Outputs.exits {ε : Type*} {f : σ → Option (σ × List ε)} {I : σ → Prop} {out : List ε}
    (outputs : Outputs f s out)
    (next : ∀ {s}, I s → ∃ s' out, f s = some (s', out) ∧ I s') : ¬ I s := by
  induction outputs with
  | stop none =>
    intro inside
    obtain ⟨s', out, some, -⟩ := next inside
    cases none.symm.trans some
  | next some _ ih =>
    intro inside
    obtain ⟨s', out, some', inside'⟩ := next inside
    cases some.symm.trans some'
    exact ih inside'

/-- There is only one such list. -/
lemma Outputs.unique {ε : Type*} {f : σ → Option (σ × List ε)} {out1 out2 : List ε}
    (run1 : Outputs f s out1) (run2 : Outputs f s out2) : out1 = out2 := by
  induction run1 generalizing out2 with
  | stop none =>
    cases run2 with
    | stop => rfl
    | next some => cases none.symm.trans some
  | next some _ ih =>
    cases run2 with
    | stop none => cases none.symm.trans some
    | next some' rest =>
      cases some.symm.trans some'
      rw [ih rest]

end Transition
