import AnyKvm.Transition

/-! `app.js`: the answers to offers. The handler of a message is suspended at each `await`, and all handlers
share the global `pc`. The connection that `createPeerConnection` makes for an offer has its number. -/
namespace AnyKvm
namespace Negotiation

open Transition

/-- The signalling states of an `RTCPeerConnection` that only gets offers. -/
inductive Signalling
  | stable
  | haveRemoteOffer
  | closed
  deriving DecidableEq, Repr

/-- What the handler of an offer waits for, with the connection that it has called; an answer is known by the
connection that has created it. -/
inductive Stage
  | settingRemote (pc : ℕ)
  | creatingAnswer (pc : ℕ)
  | settingLocal (pc : ℕ) (answer : ℕ)
  | done
  deriving DecidableEq, Repr

/-- An offer: where its handler is, and the connection made for it. -/
structure Offer where
  stage : Stage
  signalling : Signalling
  deriving DecidableEq, Repr

/-- `answers` are those sent, with the offers whose handlers have sent them, newest first. -/
structure State where
  offers : List Offer
  pc : Option ℕ
  ws : Bool
  answers : List (ℕ × ℕ)
  deriving DecidableEq, Repr

/-- `settle` is the end of the wait of a handler, with success or an error; `connect` is `connectSignal`. -/
inductive Action
  | offer
  | settle (handler : ℕ) (ok : Bool)
  | reset
  | connect
  deriving DecidableEq, Repr

namespace State
variable (s : State)

def start : State := ⟨[],none,false,[]⟩

def signalling (pc : ℕ) : Signalling := (s.offers[pc]?.map Offer.signalling).getD .closed

def stage (handler : ℕ) : Stage := (s.offers[handler]?.map Offer.stage).getD .done

def setSignalling (pc : ℕ) (signalling : Signalling) : State :=
  { s with offers := s.offers.modify pc fun o => { o with signalling := signalling } }

def setStage (handler : ℕ) (stage : Stage) : State :=
  { s with offers := s.offers.modify handler fun o => { o with stage := stage } }

/-- The next call of a handler is one of the global `pc`; without one it throws. -/
def call (handler : ℕ) (next : ℕ → Stage) : State :=
  s.setStage handler ((s.pc.map next).getD .done)

def offer : Option State :=
  if s.ws then
    some { s with
      offers := s.offers ++ [⟨.settingRemote s.offers.length,.stable⟩]
      pc := some s.offers.length }
  else none

/-- A connection that is closed settles nothing, and the others allow what their state allows. -/
def succeed (handler : ℕ) : Option State :=
  match s.stage handler with
  | .settingRemote pc =>
    if s.signalling pc ≠ .closed then
      some ((s.setSignalling pc .haveRemoteOffer).call handler .creatingAnswer)
    else none
  | .creatingAnswer pc =>
    if s.signalling pc = .haveRemoteOffer then some (s.call handler fun now => .settingLocal now pc) else none
  | .settingLocal pc answer =>
    if s.signalling pc = .haveRemoteOffer ∧ answer = pc then
      let s := (s.setSignalling pc .stable).setStage handler .done
      some { s with answers := if s.ws then (handler,answer) :: s.answers else s.answers }
    else none
  | .done => none

/-- An error is caught, and the handler is over. -/
def fail (handler : ℕ) : Option State :=
  if s.stage handler = .done then none else some (s.setStage handler .done)

def reset : State :=
  { (s.pc.map fun pc => s.setSignalling pc .closed).getD s with pc := none, ws := false }

end State

def step (s : State) : Action → Option State
  | .offer => s.offer
  | .settle handler true => s.succeed handler
  | .settle handler false => s.fail handler
  | .reset => some s.reset
  | .connect => if s.ws then none else some { s with ws := true }

/-- Answers come from the connections made for their offers, each offer has at most one, and at most one
connection is open. -/
structure Orderly (s : State) : Prop where
  own : ∀ handler answer, (handler,answer) ∈ s.answers → answer = handler
  once : (s.answers.map Prod.fst).Nodup
  single : ∀ pc pc', s.signalling pc ≠ .closed → s.signalling pc' ≠ .closed → pc = pc'

/-- The connection that a handler at some stage has called, and the answer that it has. -/
def Stage.Own (handler : ℕ) : Stage → Prop
  | .settingRemote pc | .creatingAnswer pc => pc = handler
  | .settingLocal pc answer => pc = handler ∧ answer = handler
  | .done => True

/-- The state as long as no offer has come while there was a connection: the only one that can be open is the
current one, and no handler has been moved to another. -/
structure Tidy (s : State) : Prop where
  current : ∀ pc, s.pc = some pc → s.signalling pc ≠ .closed
  opened : ∀ pc, s.signalling pc ≠ .closed → s.pc = some pc
  own : ∀ handler, (s.stage handler).Own handler
  answered : ∀ handler answer, (handler,answer) ∈ s.answers →
    answer = handler ∧ handler < s.offers.length ∧ s.stage handler = .done
  once : (s.answers.map Prod.fst).Nodup

section Lemmas
variable {s s' : State} {handler pc pc' : ℕ}

@[simp] theorem signalling_setStage (s : State) (handler : ℕ) (stage : Stage) (pc : ℕ) :
    (s.setStage handler stage).signalling pc = s.signalling pc := by
  unfold State.signalling State.setStage
  rw [List.getElem?_modify]
  cases s.offers[pc]? with
  | none => rfl
  | some o => by_cases h : handler = pc <;> simp [h]

@[simp] theorem stage_setSignalling (s : State) (pc : ℕ) (signalling : Signalling) (handler : ℕ) :
    (s.setSignalling pc signalling).stage handler = s.stage handler := by
  unfold State.stage State.setSignalling
  rw [List.getElem?_modify]
  cases s.offers[handler]? with
  | none => rfl
  | some o => by_cases h : pc = handler <;> simp [h]

theorem signalling_setSignalling (s : State) (pc : ℕ) (signalling : Signalling) (pc' : ℕ) :
    (s.setSignalling pc signalling).signalling pc' =
      if pc = pc' ∧ pc' < s.offers.length then signalling else s.signalling pc' := by
  unfold State.signalling State.setSignalling
  rw [List.getElem?_modify]
  by_cases hlt : pc' < s.offers.length
  · rw [List.getElem?_eq_getElem hlt]
    by_cases h : pc = pc' <;> simp [h,hlt]
  · rw [List.getElem?_eq_none (Nat.le_of_not_lt hlt)]
    simp [hlt]

theorem stage_setStage (s : State) (handler : ℕ) (stage : Stage) (handler' : ℕ) :
    (s.setStage handler stage).stage handler' =
      if handler = handler' ∧ handler' < s.offers.length then stage else s.stage handler' := by
  unfold State.stage State.setStage
  rw [List.getElem?_modify]
  by_cases hlt : handler' < s.offers.length
  · rw [List.getElem?_eq_getElem hlt]
    by_cases h : handler = handler' <;> simp [h,hlt]
  · rw [List.getElem?_eq_none (Nat.le_of_not_lt hlt)]
    simp [hlt]

@[simp] theorem length_setStage (s : State) (handler : ℕ) (stage : Stage) :
    (s.setStage handler stage).offers.length = s.offers.length := List.length_modify _ _ _

@[simp] theorem length_setSignalling (s : State) (pc : ℕ) (signalling : Signalling) :
    (s.setSignalling pc signalling).offers.length = s.offers.length := List.length_modify _ _ _

theorem lt_of_open (h : s.signalling pc ≠ .closed) : pc < s.offers.length := by
  by_contra hlt
  refine h ?_
  rw [State.signalling,List.getElem?_eq_none (Nat.le_of_not_lt hlt)]
  rfl

theorem lt_of_stage (h : s.stage handler ≠ .done) : handler < s.offers.length := by
  by_contra hlt
  refine h ?_
  rw [State.stage,List.getElem?_eq_none (Nat.le_of_not_lt hlt)]
  rfl

variable {stage : Stage} {signalling : Signalling} {a : Action} {as : List Action}

theorem Tidy.congr (h : Tidy s) (hoffers : s'.offers = s.offers) (hpc : s'.pc = s.pc)
    (hanswers : s'.answers = s.answers) : Tidy s' := by
  obtain ⟨offers,pc,ws,answers⟩ := s
  obtain ⟨offers',pc',ws',answers'⟩ := s'
  cases hoffers
  cases hpc
  cases hanswers
  exact ⟨h.current,h.opened,h.own,h.answered,h.once⟩

theorem Tidy.setSignalling (h : Tidy s) (hopen : s.signalling pc ≠ .closed) (hsignalling : signalling ≠ .closed) :
    Tidy (s.setSignalling pc signalling) := by
  have hsame : ∀ pc', (s.setSignalling pc signalling).signalling pc' ≠ .closed ↔ s.signalling pc' ≠ .closed := by
    intro pc'
    rw [signalling_setSignalling]
    split
    · rename_i heq
      exact iff_of_true hsignalling (heq.1 ▸ hopen)
    · rfl
  refine ⟨fun pc' hpc => (hsame pc').mpr (h.current pc' hpc),fun pc' hpc => h.opened pc' ((hsame pc').mp hpc),
    fun handler => ?_,fun handler answer hmem => ?_,h.once⟩
  · rw [stage_setSignalling]
    exact h.own handler
  · rw [stage_setSignalling,length_setSignalling]
    exact h.answered handler answer hmem

theorem Tidy.setStage (h : Tidy s) (hstage : s.stage handler ≠ .done) (hown : stage.Own handler) :
    Tidy (s.setStage handler stage) := by
  refine ⟨fun pc hpc => ?_,fun pc hpc => ?_,fun handler' => ?_,fun handler' answer hmem => ?_,h.once⟩
  · rw [signalling_setStage]
    exact h.current pc hpc
  · rw [signalling_setStage] at hpc
    exact h.opened pc hpc
  · rw [stage_setStage]
    split
    · rename_i heq
      exact heq.1 ▸ hown
    · exact h.own handler'
  · obtain ⟨hanswer,hlt,hdone⟩ := h.answered handler' answer hmem
    rw [stage_setStage,length_setStage]
    refine ⟨hanswer,hlt,?_⟩
    split
    · rename_i heq
      exact absurd (heq.1 ▸ hdone) hstage
    · exact hdone

theorem Tidy.answer (h : Tidy s) (hlt : handler < s.offers.length) (hdone : s.stage handler = .done)
    (hfresh : handler ∉ s.answers.map Prod.fst) :
    Tidy { s with answers := (handler,handler) :: s.answers } := by
  refine ⟨h.current,h.opened,h.own,fun handler' answer hmem => ?_,List.nodup_cons.mpr ⟨hfresh,h.once⟩⟩
  rcases List.mem_cons.mp hmem with heq | hmem
  · cases heq
    exact ⟨rfl,hlt,hdone⟩
  · exact h.answered handler' answer hmem

theorem call_eq (hpc : s.pc = some pc) (next : ℕ → Stage) : s.call handler next = s.setStage handler (next pc) := by
  rw [State.call,hpc]
  rfl

theorem Tidy.succeed (h : Tidy s) (hs : s.succeed handler = some s') : Tidy s' := by
  have hown := h.own handler
  unfold State.succeed at hs
  split at hs
  · rename_i pc hstage
    split at hs
    · rename_i hopen
      rw [hstage] at hown
      rw [call_eq (show (s.setSignalling pc .haveRemoteOffer).pc = some pc from h.opened pc hopen)] at hs
      cases Option.some.inj hs
      refine (h.setSignalling hopen (by decide)).setStage ?_ hown
      rw [stage_setSignalling,hstage]
      simp
    · cases hs
  · rename_i pc hstage
    split at hs
    · rename_i hremote
      rw [hstage] at hown
      rw [call_eq (h.opened pc (by simp [hremote]))] at hs
      cases Option.some.inj hs
      exact h.setStage (by simp [hstage]) ⟨hown,hown⟩
    · cases hs
  · rename_i pc answer hstage
    split at hs
    · rename_i hremote
      rw [hstage] at hown
      obtain ⟨hpc,hanswer⟩ := hown
      subst hpc hanswer
      have hlt : answer < s.offers.length := lt_of_stage (by simp [hstage])
      have htidy : Tidy ((s.setSignalling answer .stable).setStage answer .done) := by
        refine (h.setSignalling (by simp [hremote.1]) (by decide)).setStage ?_ trivial
        rw [stage_setSignalling,hstage]
        simp
      have hfresh : answer ∉ s.answers.map Prod.fst := by
        intro hmem
        obtain ⟨⟨handler,answer'⟩,hsent,rfl⟩ := List.mem_map.mp hmem
        have hdone := (h.answered _ _ hsent).2.2
        rw [hstage] at hdone
        cases hdone
      cases Option.some.inj hs
      by_cases hws : s.ws = true
      · refine (htidy.answer (by simpa using hlt) ?_ hfresh).congr rfl rfl (if_pos hws)
        rw [stage_setStage,if_pos ⟨rfl,by simpa using hlt⟩]
      · exact htidy.congr rfl rfl (if_neg hws)
    · cases hs
  · cases hs

theorem Tidy.fail (h : Tidy s) (hs : s.fail handler = some s') : Tidy s' := by
  unfold State.fail at hs
  split at hs
  · cases hs
  · rename_i hstage
    cases Option.some.inj hs
    exact h.setStage hstage trivial

theorem closed_of_none (h : Tidy s) (hpc : s.pc = none) (pc : ℕ) : s.signalling pc = .closed := by
  by_contra hopen
  have hsome := h.opened pc hopen
  rw [hpc] at hsome
  cases hsome

theorem Tidy.reset (h : Tidy s) : Tidy s.reset := by
  cases hpc : s.pc with
  | none =>
    have hreset : s.reset = { s with pc := none, ws := false } := by
      rw [State.reset,hpc]
      rfl
    rw [hreset]
    exact ⟨fun _ hsome => (nomatch hsome),fun pc hopen => absurd (closed_of_none h hpc pc) hopen,h.own,h.answered,h.once⟩
  | some pc =>
    have hreset : s.reset = { s.setSignalling pc .closed with pc := none, ws := false } := by
      rw [State.reset,hpc]
      rfl
    have hclosed : ∀ pc', (s.setSignalling pc .closed).signalling pc' = .closed := by
      intro pc'
      rw [signalling_setSignalling]
      split
      · rfl
      · rename_i hne
        by_contra hopen
        have hcurrent := h.opened pc' hopen
        rw [hpc] at hcurrent
        exact hne ⟨Option.some.inj hcurrent,lt_of_open hopen⟩
    rw [hreset]
    refine ⟨fun _ hsome => (nomatch hsome),fun pc' hopen => absurd (hclosed pc') hopen,fun handler => ?_,
      fun handler answer hmem => ?_,h.once⟩
    · exact (stage_setSignalling s pc .closed handler) ▸ h.own handler
    · obtain ⟨hanswer,hlt,hdone⟩ := h.answered handler answer hmem
      exact ⟨hanswer,(length_setSignalling s pc .closed).symm ▸ hlt,(stage_setSignalling s pc .closed handler).trans hdone⟩

theorem offer_spec (hs : s.offer = some s') :
    s'.pc = some s.offers.length ∧ s'.answers = s.answers ∧ s'.offers.length = s.offers.length + 1 ∧
      (∀ pc, s'.signalling pc = if pc = s.offers.length then .stable else s.signalling pc) ∧
      ∀ handler, s'.stage handler =
        if handler = s.offers.length then .settingRemote s.offers.length else s.stage handler := by
  unfold State.offer at hs
  split at hs
  · cases Option.some.inj hs
    refine ⟨rfl,rfl,by simp,fun pc => ?_,fun handler => ?_⟩
    · unfold State.signalling
      rcases lt_trichotomy pc s.offers.length with hlt | rfl | hlt
      · rw [List.getElem?_append_left hlt,if_neg (Nat.ne_of_lt hlt)]
      · rw [List.getElem?_concat_length,if_pos rfl]
        rfl
      · rw [List.getElem?_eq_none (List.length_append.trans_le hlt),if_neg (Nat.ne_of_gt hlt),
          List.getElem?_eq_none (Nat.le_of_lt hlt)]
    · unfold State.stage
      rcases lt_trichotomy handler s.offers.length with hlt | rfl | hlt
      · rw [List.getElem?_append_left hlt,if_neg (Nat.ne_of_lt hlt)]
      · rw [List.getElem?_concat_length,if_pos rfl]
        rfl
      · rw [List.getElem?_eq_none (List.length_append.trans_le hlt),if_neg (Nat.ne_of_gt hlt),
          List.getElem?_eq_none (Nat.le_of_lt hlt)]
  · cases hs

theorem Tidy.offer (h : Tidy s) (hpc : s.pc = none) (hs : s.offer = some s') : Tidy s' := by
  obtain ⟨hcurrent,hanswers,hlength,hsignalling,hstage⟩ := offer_spec hs
  refine ⟨fun pc hsome => ?_,fun pc hopen => ?_,fun handler => ?_,fun handler answer hmem => ?_,?_⟩
  · rw [hcurrent] at hsome
    rw [hsignalling,if_pos (Option.some.inj hsome).symm]
    decide
  · rw [hsignalling] at hopen
    split at hopen
    · rename_i heq
      rw [hcurrent,heq]
    · exact absurd (closed_of_none h hpc pc) hopen
  · rw [hstage]
    split
    · rename_i heq
      exact heq.symm
    · exact h.own handler
  · rw [hanswers] at hmem
    obtain ⟨hanswer,hlt,hdone⟩ := h.answered handler answer hmem
    rw [hlength,hstage,if_neg (Nat.ne_of_lt hlt)]
    exact ⟨hanswer,Nat.lt_succ_of_lt hlt,hdone⟩
  · rw [hanswers]
    exact h.once

theorem Tidy.orderly (h : Tidy s) : Orderly s := by
  refine ⟨fun handler answer hmem => (h.answered handler answer hmem).1,h.once,fun pc pc' hopen hopen' => ?_⟩
  exact Option.some.inj ((h.opened pc hopen).symm.trans (h.opened pc' hopen'))

/-- No offer comes while there is a connection. -/
def Fresh (s : State) (a : Action) : Prop := a = .offer → s.pc = none

theorem Tidy.step (h : Tidy s) (hfresh : Fresh s a) (hs : step s a = some s') : Tidy s' := by
  cases a with
  | offer => exact h.offer (hfresh rfl) hs
  | settle handler ok =>
    cases ok with
    | true => exact h.succeed hs
    | false => exact h.fail hs
  | reset =>
    cases Option.some.inj hs
    exact h.reset
  | connect =>
    simp only [Negotiation.step] at hs
    split at hs
    · cases hs
    · cases Option.some.inj hs
      exact h.congr rfl rfl rfl

theorem tidy_start : Tidy .start :=
  ⟨fun _ h => (nomatch h),fun _ h => absurd rfl h,fun _ => trivial,fun _ _ h => (nomatch h),List.nodup_nil⟩

theorem tidy (h : GuardedRun step .start (fun _ s a => Fresh s a) as s) : Tidy s := by
  refine h.invariant (P := fun _ s => Tidy s) tidy_start ?_
  intro as s a s' _ htidy hfresh hs
  exact htidy.step hfresh hs

/-- The old connection is still open when an offer has replaced it. -/
theorem Orderly.fresh (h : Tidy s) (hs : step s a = some s') (horderly : Orderly s') : Fresh s a := by
  rintro rfl
  by_contra hpc
  obtain ⟨pc,hpc⟩ := Option.ne_none_iff_exists'.mp hpc
  obtain ⟨_,_,_,hsignalling,_⟩ := offer_spec hs
  have hopen := h.current pc hpc
  have hne : pc ≠ s.offers.length := Nat.ne_of_lt (lt_of_open hopen)
  refine hne (horderly.single pc s.offers.length ?_ ?_)
  · rw [hsignalling,if_neg hne]
    exact hopen
  · rw [hsignalling,if_pos rfl]
    decide

/-- The negotiation is in order all along a run exactly if no offer comes while there is a connection. -/
theorem always_orderly_iff (h : Run step .start as s) :
    Always step .start (fun _ s => Orderly s) as ↔ GuardedRun step .start (fun _ s a => Fresh s a) as s :=
  h.always_iff_guarded tidy_start.orderly fun _ _ _ _ hguarded _ hs =>
    ⟨fun hfresh => ((tidy hguarded).step hfresh hs).orderly,fun horderly => horderly.fresh (tidy hguarded) hs⟩

end Lemmas

instance (s : State) (a : Action) : Decidable (Fresh s a) := inferInstanceAs (Decidable (_ → _))

/-- Three offers in a row. The second is given up, and its handler ends only after the third has come. -/
def inTurn : List Action :=
  [.connect,.offer,.settle 0 true,.settle 0 true,.settle 0 true,.reset,.connect,.offer,.settle 1 true,.reset,.connect,
    .offer,.settle 2 true,.settle 1 false,.settle 2 true,.settle 2 true]

theorem always_orderly_inTurn : ∃ s, GuardedRun step .start (fun _ s a => Fresh s a) inTurn.reverse s ∧
    s.answers = [(2,2),(0,0)] ∧ Always step .start (fun _ s => Orderly s) inTurn.reverse := by
  obtain ⟨s,hguarded,hp⟩ := exists_guarded_of_replay step .start (fun _ s a => Fresh s a) inTurn
    (fun s => s.answers = [(2,2),(0,0)]) (by decide)
  exact ⟨s,hguarded,of_decide_eq_true hp,(always_orderly_iff hguarded.run).mpr hguarded⟩

/-- Two offers: the handler of the first sends an answer that the connection of the second has created, and
the first connection stays open. -/
theorem overlapping_offers_mix :
    ¬ ∀ as s, Run step .start as s → Orderly s := by
  intro h
  obtain ⟨s,hrun,hp⟩ := exists_run_of_replay step .start
    [.connect,.offer,.offer,.settle 0 true,.settle 1 true,.settle 0 true,.settle 0 true]
    (fun s => s.answers = [(0,1)] ∧ s.signalling 0 ≠ .closed ∧ s.signalling 1 ≠ .closed) (by decide)
  obtain ⟨hanswers,_,_⟩ := of_decide_eq_true hp
  have hown := (h _ s hrun).own 0 1
  rw [hanswers] at hown
  exact absurd (hown List.mem_cons_self) (by decide)

end Negotiation
end AnyKvm
