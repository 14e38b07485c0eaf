import Mathlib.Data.List.Infix
import Mathlib.Logic.Relation

/-! Runs of labelled machines given by a partial step function.
A run carries its history, the actions taken so far with the newest first, so
that a property may speak about what has happened and not only about the state. -/
namespace AnyKvm
namespace Transition

variable {S A : Type*}

/-- `Run step start as s`: the actions `as`, newest first, lead from `start` to `s`. -/
inductive Run (step : S → A → Option S) (start : S) : List A → S → Prop
  | init : Run step start [] start
  | next {as : List A} {s s' : S} {a : A} :
      Run step start as s → step s a = some s' → Run step start (a :: as) s'

/-- A run each of whose steps meets the condition `C` on the history, the state before and the action. -/
inductive GuardedRun (step : S → A → Option S) (start : S) (C : List A → S → A → Prop) :
    List A → S → Prop
  | init : GuardedRun step start C [] start
  | next {as : List A} {s s' : S} {a : A} :
      GuardedRun step start C as s → C as s a → step s a = some s' →
      GuardedRun step start C (a :: as) s'

/-- `P` holds at every point that the run with history `as` passes through. -/
def Always (step : S → A → Option S) (start : S) (P : List A → S → Prop) (as : List A) : Prop :=
  ∀ as' s, as' <:+ as → Run step start as' s → P as' s

/-- `Q` holds of the last step of the run: of the state before it, its action and the state that it led to. -/
def LastStep (step : S → A → Option S) (start : S) (Q : S → A → S → Prop) : List A → S → Prop
  | [], _ => True
  | a :: as, s' => ∀ s, Run step start as s → Q s a s'

/-- Perform a list of actions, oldest first. -/
def replay (step : S → A → Option S) : S → List A → Option S
  | s, [] => some s
  | s, a :: as => (step s a).bind fun s' => replay step s' as

/-- Perform a list of actions as long as they meet the condition `C`; `as` are the actions before. -/
def replayGuarded (step : S → A → Option S) (C : List A → S → A → Prop) [∀ as s a, Decidable (C as s a)] :
    List A → S → List A → Option S
  | _, s, [] => some s
  | as, s, a :: bs => if C as s a then (step s a).bind fun s' => replayGuarded step C (a :: as) s' bs else none

section Rules
variable {step : S → A → Option S} {start : S} {C : List A → S → A → Prop} {P : List A → S → Prop}

theorem Run.unique {as : List A} {s t : S} (hs : Run step start as s) (ht : Run step start as t) :
    s = t := by
  induction hs generalizing t with
  | init => cases ht; rfl
  | next _ hstep ih =>
    cases ht with
    | next hprev hstep' =>
      cases ih hprev
      exact Option.some.inj (hstep.symm.trans hstep')

/-- A predicate on history and state that every step keeps holds of every run. -/
theorem Run.invariant (hinit : P [] start)
    (hstep : ∀ as s a s', Run step start as s → P as s → step s a = some s' → P (a :: as) s')
    {as : List A} {s : S} (h : Run step start as s) : P as s := by
  induction h with
  | init => exact hinit
  | next hprev hs ih => exact hstep _ _ _ _ hprev ih hs

theorem GuardedRun.run {as : List A} {s : S} (h : GuardedRun step start C as s) :
    Run step start as s := by
  induction h with
  | init => exact .init
  | next _ _ hs ih => exact .next ih hs

theorem GuardedRun.invariant (hinit : P [] start)
    (hstep : ∀ as s a s', GuardedRun step start C as s → P as s → C as s a →
      step s a = some s' → P (a :: as) s')
    {as : List A} {s : S} (h : GuardedRun step start C as s) : P as s := by
  induction h with
  | init => exact hinit
  | next hprev hc hs ih => exact hstep _ _ _ _ hprev ih hc hs

theorem always_nil : Always step start P [] ↔ P [] start := by
  constructor
  · intro h
    exact h [] start (List.suffix_refl _) .init
  · intro h as s hsuf hrun
    have has : as = [] := List.suffix_nil.mp hsuf
    subst has
    cases hrun
    exact h

theorem always_cons {as : List A} {a : A} {s : S} (hrun : Run step start (a :: as) s) :
    Always step start P (a :: as) ↔ Always step start P as ∧ P (a :: as) s := by
  constructor
  · intro h
    exact ⟨fun as' t hsuf => h as' t (hsuf.trans (List.suffix_cons a as)),
      h _ _ (List.suffix_refl _) hrun⟩
  · rintro ⟨hrest,hlast⟩ as' t hsuf ht
    rcases List.suffix_cons_iff.mp hsuf with rfl | hsuf
    · rwa [ht.unique hrun]
    · exact hrest as' t hsuf ht

theorem Always.here {as : List A} {s : S} (h : Always step start P as) (hrun : Run step start as s) :
    P as s :=
  h as s (List.suffix_refl _) hrun

/-- Under an assumption on all states of a run: when, after steps that all met `C`, the next step meets
`C` exactly if it leads into `P`, the run stays in `P` throughout exactly if all of its steps meet `C`. -/
theorem Run.always_iff_guarded_within {H : List A → S → Prop} (hinit : P [] start)
    (hstep : ∀ as s a s', GuardedRun step start C as s → Always step start H as → P as s →
      step s a = some s' → (C as s a ↔ P (a :: as) s'))
    {as : List A} {s : S} (h : Run step start as s) (hH : Always step start H as) :
    Always step start P as ↔ GuardedRun step start C as s := by
  induction h with
  | init => exact ⟨fun _ => .init,fun _ => always_nil.mpr hinit⟩
  | next hprev hs ih =>
    have hbefore := ((always_cons (.next hprev hs)).mp hH).1
    rw [always_cons (.next hprev hs)]
    constructor
    · rintro ⟨halways,hp⟩
      have hg := (ih hbefore).mp halways
      exact .next hg ((hstep _ _ _ _ hg hbefore (halways.here hprev) hs).mpr hp) hs
    · intro hg
      cases hg with
      | next hg hc hs' =>
        cases hprev.unique hg.run
        have halways := (ih hbefore).mpr hg
        exact ⟨halways,(hstep _ _ _ _ hg hbefore (halways.here hprev) hs).mp hc⟩

theorem Run.always_iff_guarded (hinit : P [] start)
    (hstep : ∀ as s a s', GuardedRun step start C as s → P as s → step s a = some s' →
      (C as s a ↔ P (a :: as) s'))
    {as : List A} {s : S} (h : Run step start as s) :
    Always step start P as ↔ GuardedRun step start C as s :=
  h.always_iff_guarded_within (H := fun _ _ => True) hinit
    (fun as s a s' hg _ => hstep as s a s' hg) fun _ _ _ _ => trivial

/-- When, after steps that all met the condition, exactly those steps meet it that are as `Q` says, so are all
steps of a run exactly if they all meet it. -/
theorem Run.always_lastStep_iff {Q : S → A → S → Prop}
    (hstep : ∀ as s a s', GuardedRun step start C as s → step s a = some s' → (C as s a ↔ Q s a s'))
    {as : List A} {s : S} (h : Run step start as s) :
    Always step start (LastStep step start Q) as ↔ GuardedRun step start C as s := by
  refine h.always_iff_guarded trivial fun as s a s' hg _ hs => ?_
  rw [hstep as s a s' hg hs]
  constructor
  · intro hq t ht
    rwa [ht.unique hg.run]
  · intro hq
    exact hq s hg.run

/-- The invariant rule for guarded runs under an assumption on all of their states. -/
theorem GuardedRun.invariant_within {H : List A → S → Prop} (hinit : P [] start)
    (hstep : ∀ as s a s', GuardedRun step start C as s → H as s → H (a :: as) s' → P as s → C as s a →
      step s a = some s' → P (a :: as) s')
    {as : List A} {s : S} (h : GuardedRun step start C as s) (hH : Always step start H as) : P as s := by
  induction h with
  | init => exact hinit
  | next hprev hc hs ih =>
    obtain ⟨hbefore,hafter⟩ := (always_cons (.next hprev.run hs)).mp hH
    exact hstep _ _ _ _ hprev (hbefore.here hprev.run) hafter (ih hbefore) hc hs

theorem Run.trans {mid : S} {as bs : List A} {s : S} (h₁ : Run step start as mid)
    (h₂ : Run step mid bs s) : Run step start (bs ++ as) s := by
  induction h₂ with
  | init => exact h₁
  | next _ hs ih => exact .next ih hs

theorem Run.single {s : S} {a : A} (h : step start a = some s) : Run step start [a] s :=
  .next .init h

theorem run_of_replay {as : List A} {s : S} (h : replay step start as = some s) :
    Run step start as.reverse s := by
  induction as generalizing start with
  | nil =>
    cases Option.some.inj h
    exact .init
  | cons a as ih =>
    obtain ⟨mid,hmid,hrest⟩ := Option.bind_eq_some_iff.mp h
    rw [List.reverse_cons]
    exact (Run.single hmid).trans (ih hrest)

/-- A checked replay that ends in a state where `p` answers true yields such a run. -/
theorem exists_run_of_replay (step : S → A → Option S) (start : S) (as : List A) (p : S → Bool)
    (h : (replay step start as).map p = some true) :
    ∃ s, Run step start as.reverse s ∧ p s = true := by
  obtain ⟨s,hs,hp⟩ := Option.map_eq_some_iff.mp h
  exact ⟨s,run_of_replay hs,hp⟩

theorem replay_append (as bs : List A) (s : S) :
    replay step s (as ++ bs) = (replay step s as).bind fun s' => replay step s' bs := by
  induction as generalizing s with
  | nil => rfl
  | cons a as ih =>
    simp only [List.cons_append,replay,ih,Option.bind_assoc]

theorem Run.replay {as : List A} {s : S} (h : Run step start as s) :
    Transition.replay step start as.reverse = some s := by
  induction h with
  | init => rfl
  | next _ hs ih =>
    rw [List.reverse_cons,replay_append,ih,Option.bind_some,Transition.replay,hs]
    rfl

theorem GuardedRun.replayGuarded [∀ as s a, Decidable (C as s a)] {as bs : List A} {s t : S}
    (h : GuardedRun step start C as s) (hreplay : Transition.replayGuarded step C as s bs = some t) :
    GuardedRun step start C (bs.reverse ++ as) t := by
  induction bs generalizing as s with
  | nil =>
    cases Option.some.inj hreplay
    exact h
  | cons b bs ih =>
    obtain ⟨hc,hreplay⟩ := Option.ite_none_right_eq_some.mp hreplay
    obtain ⟨mid,hmid,hrest⟩ := Option.bind_eq_some_iff.mp hreplay
    rw [List.reverse_cons,List.append_assoc]
    exact ih (.next h hc hmid) hrest

theorem exists_guarded_of_replay (step : S → A → Option S) (start : S) (C : List A → S → A → Prop)
    [∀ as s a, Decidable (C as s a)] (as : List A) (p : S → Bool)
    (h : (Transition.replayGuarded step C [] start as).map p = some true) :
    ∃ s, GuardedRun step start C as.reverse s ∧ p s = true := by
  obtain ⟨s,hs,hp⟩ := Option.map_eq_some_iff.mp h
  have hrun := GuardedRun.replayGuarded (.init : GuardedRun step start C [] start) hs
  rw [List.append_nil] at hrun
  exact ⟨s,hrun,hp⟩

theorem GuardedRun.trans {C : S → A → Prop} {mid : S} {as bs : List A} {s : S}
    (h₁ : GuardedRun step start (fun _ => C) as mid) (h₂ : GuardedRun step mid (fun _ => C) bs s) :
    GuardedRun step start (fun _ => C) (bs ++ as) s := by
  induction h₂ with
  | init => exact h₁
  | next _ hc hs ih => exact .next ih hc hs

theorem GuardedRun.head {C : S → A → Prop} {a : A} {mid : S} {as : List A} {s : S}
    (hs : step start a = some mid) (hc : C start a) (h : GuardedRun step mid (fun _ => C) as s) :
    GuardedRun step start (fun _ => C) (as ++ [a]) s :=
  GuardedRun.trans (.next .init hc hs) h

/-- A predicate of states that a checked replay finds true throughout. -/
theorem always_of_replay (as : List A) (p : S → Bool)
    (h : ∀ bs ∈ as.inits, (Transition.replay step start bs).all p = true) :
    Always step start (fun _ s => p s = true) as.reverse := by
  intro as' s hsuf hrun
  have hmem : as'.reverse ∈ as.inits := by
    rwa [List.mem_inits,← List.reverse_suffix,List.reverse_reverse]
  have hp := h _ hmem
  rwa [hrun.replay,Option.all_some] at hp

end Rules

end Transition
end AnyKvm
