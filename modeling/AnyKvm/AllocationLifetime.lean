import AnyKvm.RelaySession

/-! Whether the TURN allocation is still alive when its relay candidate is on offer.
It is refreshed from the main loop only, 240 s after the loop or the last refresh has set the timer,
while the offer has been out since before the wait for the browser. -/

namespace AnyKvm
namespace Relay

open Transition

/-- As long as the relay candidate is on offer, the last Allocate or Refresh request has been sent less
than the 600 s of its lifetime ago. -/
def AllocationFresh (s : Session) : Prop :=
  s.turn = true → s.point.Offered → s.now < s.sentAt + 600000

/-- Bounds, in milliseconds, on the time from the Allocate request to the answer of the browser, from one
refresh check to the next, and from the check to the end of `turn_refresh`. -/
structure Delays where
  answer : ℕ
  pass : ℕ
  refresh : ℕ
  deriving DecidableEq, Repr

/-- A session before it has its relay, before the answer of the browser, in a pass of its loop, before and
after the request of `turn_refresh`, and gone. -/
inductive Phase
  | start | waiting | passing | due | sent | gone
  deriving DecidableEq, Repr

def Point.phase : Point → Phase
  | .gathering | .allocating₁ | .allocating₂ => .start
  | .allocated | .offered => .waiting
  | .candidates | .permission _ _ | .refreshCheck | .polling | .selecting => .passing
  | .refresh => .due
  | .refreshed _ => .sent
  | .ended => .gone

/-- When the current delay is to be over. -/
def Session.deadline (s : Session) (d : Delays) : Option ℕ :=
  match s.point.phase with
  | .start | .gone => none
  | .waiting => some (s.sentAt + d.answer)
  | .passing => some (s.checkedAt + d.pass)
  | .due | .sent => some (s.checkedAt + d.refresh)

/-- No delay exceeds its bound, and the requests of `turn_refresh` are sent. -/
def Within (d : Delays) (s : Session) : Action → Prop
  | .tick ms => s.turn = true → ∀ t ∈ s.deadline d, s.now + ms ≤ t
  | .allocate ok => ok = true → s.now ≤ s.sentAt + d.answer
  | .sendRefresh sent => sent = true
  | _ => True

instance (d : Delays) (s : Session) : DecidablePred (Within d s)
  | .tick ms => inferInstanceAs (Decidable (s.turn = true → ∀ t ∈ s.deadline d, s.now + ms ≤ t))
  | .allocate ok => inferInstanceAs (Decidable (ok = true → s.now ≤ s.sentAt + d.answer))
  | .sendRefresh sent => inferInstanceAs (Decidable (sent = true))
  | .noTurn | .allocate₁ | .allocate₂ | .offer | .answer _ | .candidate _ _ | .response _ _ | .timeout
  | .socketError | .drained | .checkRefresh | .rearm | .learn _ | .transmit _ _ | .polled | .selected | .quit
  | .serverAnswers _ _ => inferInstanceAs (Decidable True)

abbrev PromptRun (d : Delays) : List Action → Session → Prop := GuardedRun step {} fun _ => Within d

variable {as : List Action} {s s' : Session} {a : Action} {d : Delays}

def SameClock (s s' : Session) : Prop :=
  s'.now = s.now ∧ s'.turn = s.turn ∧ s'.sentAt = s.sentAt ∧ s'.turnRefreshAt = s.turnRefreshAt ∧
    s'.checkedAt = s.checkedAt

theorem SameClock.refl (s : Session) : SameClock s s := ⟨rfl,rfl,rfl,rfl,rfl⟩

inductive ClockStep (s s' : Session) : Action → Prop
  | tick (ms : ℕ) (h : s' = { s with now := s.now + ms }) : ClockStep s s' (.tick ms)
  | start {a : Action} (hphase : s.point.phase = .start) (hsame : s'.now = s.now ∧ s'.turn = s.turn)
      (hsent : s'.sentAt = s.sentAt ∨ s'.sentAt = s.now) : ClockStep s s' a
  | allocate (ok : Bool) (h : s' = { s with point := .allocated, turn := ok }) : ClockStep s s' (.allocate ok)
  | enter {a : Action} (hphase : s.point.phase = .waiting) (hphase' : s'.point.phase = .passing)
      (hsame : s'.now = s.now ∧ s'.turn = s.turn ∧ s'.sentAt = s.sentAt)
      (htimer : s'.turnRefreshAt = s.now + 240000 ∧ s'.checkedAt = s.now) : ClockStep s s' a
  | check {a : Action} (hphase : s.point.phase = .passing) (h : s' = { s with
      point := if s.turn = true ∧ s.turnRefreshAt ≤ s.now then .refresh else .polling, checkedAt := s.now }) :
      ClockStep s s' a
  | send (sent : Bool) (hphase : s.point.phase = .due) (h : s' = { s with
      point := .refreshed sent, sentAt := if sent then s.now else s.sentAt }) : ClockStep s s' (.sendRefresh sent)
  | rearm {a : Action} (hphase : s.point.phase = .sent) (h : s' = { s with
      point := .polling, turnRefreshAt := s.now + 240000 }) : ClockStep s s' a
  | gone {a : Action} (hphase : s'.point.phase = .gone) (hsame : SameClock s s') : ClockStep s s' a
  | same {a : Action} (hphase : s'.point.phase = s.point.phase) (hsame : SameClock s s') : ClockStep s s' a

theorem clockStep_endWait (hs : s.endWait = some s') (a : Action) : ClockStep s s' a := by
  unfold Session.endWait at hs
  split at hs
  · rename_i ip since hpoint
    cases hs
    exact .same (by rw [hpoint]; rfl) ⟨rfl,rfl,rfl,rfl,rfl⟩
  · cases hs

theorem clockStep_candidate {ip : Turn.IpAddr} (sent : Bool) (hpoint : s.point = .candidates) (a : Action) :
    ClockStep s (s.candidate ip sent) a := by
  unfold Session.candidate
  split
  · split
    · exact .same (by rw [hpoint]; rfl) ⟨rfl,rfl,rfl,rfl,rfl⟩
    · exact .same rfl ⟨rfl,rfl,rfl,rfl,rfl⟩
  · exact .same rfl ⟨rfl,rfl,rfl,rfl,rfl⟩

theorem clockStep (hs : step s a = some s') : ClockStep s s' a := by
  cases a with
  | tick ms =>
    cases hs
    exact .tick ms rfl
  | noTurn =>
    obtain ⟨hpoint,hs⟩ := Option.ite_none_right_eq_some.mp hs
    cases hs
    exact .start (by rw [hpoint]; rfl) ⟨rfl,rfl⟩ (.inl rfl)
  | allocate₁ | allocate₂ =>
    obtain ⟨hpoint,hs⟩ := Option.ite_none_right_eq_some.mp hs
    cases hs
    exact .start (by rw [hpoint]; rfl) ⟨rfl,rfl⟩ (.inr rfl)
  | allocate ok =>
    obtain ⟨_,hs⟩ := Option.ite_none_right_eq_some.mp hs
    exact .allocate ok (Option.some.inj hs).symm
  | answer candidates =>
    obtain ⟨hpoint,hs⟩ := Option.ite_none_right_eq_some.mp hs
    cases hs
    exact .enter (by rw [hpoint]; rfl) rfl ⟨rfl,rfl,rfl⟩ ⟨rfl,rfl⟩
  | candidate ip sent =>
    obtain ⟨hpoint,hs⟩ := Option.ite_none_right_eq_some.mp hs
    cases hs
    exact clockStep_candidate sent hpoint _
  | response ip success =>
    obtain ⟨_,hs⟩ := Option.ite_none_right_eq_some.mp hs
    exact clockStep_endWait hs _
  | timeout =>
    simp only [step] at hs
    split at hs
    · exact clockStep_endWait (Option.ite_none_right_eq_some.mp hs).2 _
    · cases hs
  | socketError => exact clockStep_endWait hs _
  | checkRefresh =>
    obtain ⟨hpoint,hs⟩ := Option.ite_none_right_eq_some.mp hs
    exact .check (by rw [hpoint]; rfl) (Option.some.inj hs).symm
  | sendRefresh sent =>
    obtain ⟨hpoint,hs⟩ := Option.ite_none_right_eq_some.mp hs
    exact .send sent (by rw [hpoint]; rfl) (Option.some.inj hs).symm
  | rearm =>
    simp only [step] at hs
    split at hs
    · rename_i sent hpoint
      exact .rearm (by rw [hpoint]; rfl) (Option.some.inj hs).symm
    · cases hs
  | quit =>
    obtain ⟨_,hs⟩ := Option.ite_none_left_eq_some.mp hs
    cases hs
    exact .gone rfl ⟨rfl,rfl,rfl,rfl,rfl⟩
  | offer | drained | polled | selected =>
    obtain ⟨hpoint,hs⟩ := Option.ite_none_right_eq_some.mp hs
    cases hs
    exact .same (by rw [hpoint]; rfl) ⟨rfl,rfl,rfl,rfl,rfl⟩
  | learn ip | transmit relayed destination | serverAnswers ip success =>
    obtain ⟨_,hs⟩ := Option.ite_none_right_eq_some.mp hs
    cases hs
    exact .same rfl ⟨rfl,rfl,rfl,rfl,rfl⟩

/-- Where the clock of a session with a relay stands. The timer is set at most the wait for the browser, or a
call of `turn_refresh`, after the last request; a pass later than that it is found due. -/
def OnTime (d : Delays) (s : Session) : Phase → Prop
  | .start => False
  | .waiting => s.now ≤ s.sentAt + d.answer
  | .passing => s.checkedAt < s.turnRefreshAt ∧ s.now < s.turnRefreshAt + d.pass ∧
    s.turnRefreshAt ≤ s.sentAt + max d.answer d.refresh + 240000
  | .due => s.checkedAt ≤ s.now ∧ s.now ≤ s.checkedAt + d.refresh ∧ s.checkedAt < s.turnRefreshAt + d.pass ∧
    s.turnRefreshAt ≤ s.sentAt + max d.answer d.refresh + 240000
  | .sent => s.checkedAt ≤ s.sentAt ∧ s.now ≤ s.checkedAt + d.refresh
  | .gone => True

structure Timely (d : Delays) (s : Session) : Prop where
  past : s.sentAt ≤ s.now
  onTime : s.turn = true → OnTime d s s.point.phase

theorem onTime_tick {ms : ℕ} (h : OnTime d s s.point.phase) (hms : ∀ t ∈ s.deadline d, s.now + ms ≤ t) :
    OnTime d { s with now := s.now + ms } s.point.phase := by
  unfold Session.deadline at hms
  revert h hms
  cases s.point.phase with
  | start => exact fun h _ => h
  | gone => exact fun h _ => h
  | waiting => exact fun _ hms => hms _ rfl
  | passing =>
    rintro ⟨hchecked,_,htimer⟩ hms
    have hpass := hms _ rfl
    exact ⟨hchecked,by change s.now + ms < s.turnRefreshAt + d.pass; omega,htimer⟩
  | due =>
    rintro ⟨hchecked,_,hdue,htimer⟩ hms
    exact ⟨by change s.checkedAt ≤ s.now + ms; omega,hms _ rfl,hdue,htimer⟩
  | sent =>
    rintro ⟨hsent,_⟩ hms
    exact ⟨hsent,hms _ rfl⟩

theorem onTime_check (h : OnTime d s .passing) (hturn : s.turn = true) :
    OnTime d { s with checkedAt := s.now }
      (Point.phase (if s.turn = true ∧ s.turnRefreshAt ≤ s.now then .refresh else .polling)) := by
  obtain ⟨_,hpass,htimer⟩ := h
  split
  · exact ⟨le_rfl,Nat.le_add_right _ _,hpass,htimer⟩
  · rename_i hearly
    have hnow : s.now < s.turnRefreshAt := Nat.not_le.mp fun hdue => hearly ⟨hturn,hdue⟩
    exact ⟨hnow,hpass,htimer⟩

theorem onTime_rearm (h : OnTime d s .sent) (hpast : s.sentAt ≤ s.now) :
    OnTime d { s with turnRefreshAt := s.now + 240000 } .passing := by
  obtain ⟨hsent,hnow⟩ := h
  have hbound := le_max_right d.answer d.refresh
  refine ⟨?_,?_,?_⟩
  · change s.checkedAt < s.now + 240000
    omega
  · change s.now < s.now + 240000 + d.pass
    omega
  · change s.now + 240000 ≤ s.sentAt + max d.answer d.refresh + 240000
    omega

theorem Timely.step (h : Timely d s) (hd : Within d s a) (hs : Relay.step s a = some s') : Timely d s' := by
  obtain ⟨hpast,honTime⟩ := h
  cases clockStep hs with
  | tick ms hs' =>
    subst hs'
    exact ⟨hpast.trans (Nat.le_add_right _ _),fun hturn => onTime_tick (honTime hturn) (hd hturn)⟩
  | start hphase hsame hsent =>
    refine ⟨by omega,fun hturn => ?_⟩
    have hfalse := honTime (hsame.2 ▸ hturn)
    rw [hphase] at hfalse
    exact hfalse.elim
  | allocate ok hs' =>
    subst hs'
    exact ⟨hpast,hd⟩
  | enter hphase hphase' hsame htimer =>
    obtain ⟨hnow,hturn',hsent⟩ := hsame
    obtain ⟨htimer,hchecked⟩ := htimer
    refine ⟨by omega,fun hturn => ?_⟩
    have hanswer := honTime (hturn' ▸ hturn)
    rw [hphase] at hanswer
    change s.now ≤ s.sentAt + d.answer at hanswer
    have hbound := le_max_left d.answer d.refresh
    rw [hphase',OnTime,hnow,hsent,htimer,hchecked]
    omega
  | check hphase hs' =>
    subst hs'
    exact ⟨hpast,fun hturn => onTime_check (hphase ▸ honTime hturn) hturn⟩
  | send sent hphase hs' =>
    subst hs'
    cases sent with
    | false => cases hd
    | true =>
      refine ⟨le_rfl,fun hturn => ?_⟩
      have hdue := honTime hturn
      rw [hphase] at hdue
      exact ⟨hdue.1,hdue.2.1⟩
  | rearm hphase hs' =>
    subst hs'
    exact ⟨hpast,fun hturn => onTime_rearm (hphase ▸ honTime hturn) hpast⟩
  | gone hphase hsame =>
    obtain ⟨hnow,_,hsent,_⟩ := hsame
    refine ⟨by omega,fun _ => ?_⟩
    rw [hphase]
    trivial
  | same hphase hsame =>
    obtain ⟨hnow,hturn',hsent,htimer,hchecked⟩ := hsame
    refine ⟨by omega,fun hturn => ?_⟩
    have hbefore := honTime (hturn' ▸ hturn)
    rw [hphase]
    revert hbefore
    cases s.point.phase <;> simp only [OnTime,hnow,hsent,htimer,hchecked,imp_self]

theorem timely (h : PromptRun d as s) : Timely d s := by
  refine h.invariant (P := fun _ s => Timely d s) ⟨le_rfl,fun hturn => by cases hturn⟩ ?_
  intro as s a s' _ ih hd hs
  exact ih.step hd hs

theorem Timely.fresh (h : Timely d s) (hd : max d.answer d.refresh + d.pass + d.refresh ≤ 360000) :
    AllocationFresh s := by
  intro hturn hoffered
  have honTime := h.onTime hturn
  have hanswer := le_max_left d.answer d.refresh
  have hrefresh := le_max_right d.answer d.refresh
  cases hphase : s.point.phase with
  | start =>
    rw [hphase] at honTime
    exact honTime.elim
  | gone =>
    unfold Point.phase at hphase
    split at hphase <;> simp_all [Point.Offered,Point.Looping]
  | waiting | passing | due | sent =>
    rw [hphase,OnTime] at honTime
    omega

theorem prompt_pass (hrun : PromptRun d as s) (hpoint : s.point = .candidates) (hchecked : s.checkedAt = s.now)
    {ms : ℕ} (hms : ms ≤ d.pass) (hearly : s.now + ms < s.turnRefreshAt) :
    ∃ as, PromptRun d as { s with now := s.now + ms, checkedAt := s.now + ms } := by
  have htick : Within d s (.tick ms) := by
    intro _ t ht
    rw [Session.deadline,hpoint] at ht
    cases ht
    omega
  have hdrained : step { s with now := s.now + ms } .drained =
      some { s with point := .refreshCheck, now := s.now + ms } := by simp [step,hpoint]
  have hcheck : step { s with point := .refreshCheck, now := s.now + ms } .checkRefresh =
      some { s with point := .polling, now := s.now + ms, checkedAt := s.now + ms } := by
    simp [step,Nat.not_le.mpr hearly]
  have hselected : step { s with point := .selecting, now := s.now + ms, checkedAt := s.now + ms } .selected =
      some { s with now := s.now + ms, checkedAt := s.now + ms } := by simp [step,hpoint]
  exact ⟨_,hrun.trans (.head rfl htick (.head hdrained trivial (.head hcheck trivial
    (.head (a := Action.polled) rfl trivial (.head hselected trivial .init)))))⟩

theorem prompt_passes (hrun : PromptRun d as s) (hpoint : s.point = .candidates) (hchecked : s.checkedAt = s.now)
    (hd : 0 < d.pass) (n : ℕ) (hearly : s.now + n < s.turnRefreshAt) :
    ∃ as, PromptRun d as { s with now := s.now + n, checkedAt := s.now + n } := by
  induction n with
  | zero =>
    obtain ⟨⟩ := s
    cases hchecked
    exact ⟨as,hrun⟩
  | succ n ih =>
    obtain ⟨bs,hbs⟩ := ih (by omega)
    exact prompt_pass hbs hpoint rfl hd hearly

/-- One check comes just too early for the refresh, and the next as late as it may. -/
theorem prompt_due (hrun : PromptRun d as s) (hpoint : s.point = .candidates) (hchecked : s.checkedAt = s.now)
    (hturn : s.turn = true) (htimer : s.turnRefreshAt = s.now + 240000) (hd : 0 < d.pass) :
    ∃ as, PromptRun d as { s with
      point := .refresh, now := s.now + 239999 + d.pass, checkedAt := s.now + 239999 + d.pass } := by
  obtain ⟨bs,hbs⟩ := prompt_passes hrun hpoint hchecked hd 239999 (by omega)
  have htick : Within d { s with now := s.now + 239999, checkedAt := s.now + 239999 } (.tick d.pass) := by
    intro _ t ht
    rw [Session.deadline,hpoint] at ht
    cases ht
    exact le_rfl
  have hdrained : step { s with now := s.now + 239999 + d.pass, checkedAt := s.now + 239999 } .drained = some { s with
      point := .refreshCheck, now := s.now + 239999 + d.pass, checkedAt := s.now + 239999 } := by simp [step,hpoint]
  have hcheck : step { s with
      point := .refreshCheck, now := s.now + 239999 + d.pass, checkedAt := s.now + 239999 } .checkRefresh = some { s with
      point := .refresh, now := s.now + 239999 + d.pass, checkedAt := s.now + 239999 + d.pass } := by
    have hdue : s.turnRefreshAt ≤ s.now + 239999 + d.pass := by omega
    simp [step,hturn,hdue]
  exact ⟨_,hbs.trans (.head rfl htick (.head hdrained trivial (.head hcheck trivial .init)))⟩

theorem prompt_refresh (hrun : PromptRun d as s) (hpoint : s.point = .refresh) (hchecked : s.checkedAt = s.now) :
    ∃ as, PromptRun d as { s with
      point := .candidates, now := s.now + d.refresh, sentAt := s.now, checkedAt := s.now + d.refresh,
      turnRefreshAt := s.now + d.refresh + 240000 } := by
  have hsend : step s (.sendRefresh true) = some { s with point := .refreshed true, sentAt := s.now } := by
    simp [step,hpoint]
  have htick : Within d { s with point := .refreshed true, sentAt := s.now } (.tick d.refresh) := by
    intro _ t ht
    cases ht
    exact Nat.add_le_add_right hchecked.ge _
  have hcheck : step { s with
      point := .refreshCheck, now := s.now + d.refresh, sentAt := s.now,
      turnRefreshAt := s.now + d.refresh + 240000 } .checkRefresh = some { s with
      point := .polling, now := s.now + d.refresh, sentAt := s.now, checkedAt := s.now + d.refresh,
      turnRefreshAt := s.now + d.refresh + 240000 } := by simp [step]
  exact ⟨_,hrun.trans (.head hsend rfl (.head rfl htick (.head (a := Action.rearm) rfl trivial
    (.head (a := Action.polled) rfl trivial (.head (a := Action.selected) rfl trivial (.head (a := Action.drained) rfl trivial (.head hcheck trivial
    (.head (a := Action.polled) rfl trivial (.head (a := Action.selected) rfl trivial .init)))))))))⟩

theorem prompt_answer (d : Delays) : ∃ as, PromptRun d as { ({} : Session) with
    point := .candidates, now := d.answer, turn := true, turnRefreshAt := d.answer + 240000,
    checkedAt := d.answer } := by
  have htick : Within d { ({} : Session) with point := .offered, turn := true } (.tick d.answer) := by
    intro _ t ht
    cases ht
    exact le_rfl
  have hanswer : step { ({} : Session) with point := .offered, now := 0 + d.answer, turn := true } (.answer []) =
      some { ({} : Session) with
        point := .candidates, now := d.answer, turn := true, turnRefreshAt := d.answer + 240000,
        checkedAt := d.answer } := by simp [step]
  have hallocate : Within d { ({} : Session) with point := .allocating₂ } (.allocate true) :=
    fun _ => Nat.zero_le _
  exact ⟨_,.head (a := Action.allocate₁) rfl trivial (.head (a := Action.allocate₂) rfl trivial (.head rfl hallocate
    (.head (a := Action.offer) rfl trivial (.head rfl htick (.head hanswer trivial .init)))))⟩

/-- Where the check that finds the timer due comes as late as it may, and the request as well. -/
theorem expired_of_due (hrun : PromptRun d as s) (hpoint : s.point = .refresh) (hchecked : s.checkedAt = s.now)
    (hturn : s.turn = true) (hlate : s.sentAt + 600000 ≤ s.now + d.refresh) :
    ∃ as s', PromptRun d as s' ∧ ¬ AllocationFresh s' := by
  have htick : Within d s (.tick d.refresh) := by
    intro _ t ht
    rw [Session.deadline,hpoint] at ht
    cases ht
    exact Nat.add_le_add_right hchecked.ge _
  refine ⟨_,_,hrun.trans (.head rfl htick .init),fun hfresh => ?_⟩
  have hlt := hfresh hturn (.inr (by rw [hpoint]; trivial))
  exact absurd hlt (Nat.not_lt.mpr hlate)

theorem expired_of_exceeded (hd : 0 < d.pass) (hexceeded : 360000 < max d.answer d.refresh + d.pass + d.refresh) :
    ∃ as s, PromptRun d as s ∧ ¬ AllocationFresh s := by
  obtain ⟨as₁,hanswer⟩ := prompt_answer d
  obtain ⟨as₂,hdue⟩ := prompt_due hanswer rfl rfl rfl rfl hd
  rcases le_total d.refresh d.answer with hle | hle
  · rw [max_eq_left hle] at hexceeded
    refine expired_of_due hdue rfl rfl rfl ?_
    change 0 + 600000 ≤ d.answer + 239999 + d.pass + d.refresh
    omega
  · rw [max_eq_right hle] at hexceeded
    obtain ⟨as₃,hrefresh⟩ := prompt_refresh hdue rfl rfl
    obtain ⟨as₄,hdue'⟩ := prompt_due hrefresh rfl rfl rfl rfl hd
    refine expired_of_due hdue' rfl rfl rfl ?_
    change d.answer + 239999 + d.pass + 600000 ≤
      d.answer + 239999 + d.pass + d.refresh + 239999 + d.pass + d.refresh
    omega

/-- The allocation is fresh in all sessions whose delays keep their bounds, exactly if the longest time from a
request to the setting of the timer, a pass and a call of `turn_refresh` together take at most 360 s. -/
theorem allocation_fresh_iff (hd : 0 < d.pass) :
    (∀ as s, PromptRun d as s → AllocationFresh s) ↔ max d.answer d.refresh + d.pass + d.refresh ≤ 360000 := by
  constructor
  · intro hfresh
    by_contra hexceeded
    obtain ⟨as,s,hrun,hexpired⟩ := expired_of_exceeded hd (Nat.not_le.mp hexceeded)
    exact hexpired (hfresh as s hrun)
  · intro hfits as s hrun
    exact (timely hrun).fresh hfits

/-- A session that refreshes its allocation twice, after the browser has taken five minutes to answer. -/
def twoRefreshes : List Action :=
  [.allocate₁,.tick 40,.allocate₂,.tick 60,.allocate true,.offer,.tick 290000,.answer [.v4 0xC0A80107],.drained,
    .checkRefresh,.polled,.tick 5,.selected,.candidate (.v4 0xCB007105) true,.tick 2000,.timeout,.tick 10000,.drained,
    .checkRefresh,.polled,.selected] ++
  (List.replicate 18 [.tick 12000,.drained,.checkRefresh,.polled,.selected]).flatten ++
  [.tick 12000,.drained,.checkRefresh,.tick 15000,.sendRefresh true,.tick 1000,.rearm,.polled,.selected,.drained,
    .checkRefresh,.polled,.selected] ++
  (List.replicate 20 [.tick 12000,.drained,.checkRefresh,.polled,.selected]).flatten.dropLast.dropLast ++
  [.tick 20000,.sendRefresh true,.rearm]

theorem allocation_fresh_iff_twoRefreshes :
    ∃ s, PromptRun ⟨300000,20000,20000⟩ twoRefreshes.reverse s ∧
      (s.turn = true ∧ s.point = .polling ∧ s.now = 806105) ∧ AllocationFresh s := by
  obtain ⟨s,hrun,hp⟩ := exists_guarded_of_replay step {} (fun _ => Within ⟨300000,20000,20000⟩) twoRefreshes
    (fun s => s.turn = true ∧ s.point = .polling ∧ s.now = 806105) (by decide +kernel)
  exact ⟨s,hrun,of_decide_eq_true hp,
    (allocation_fresh_iff (d := ⟨300000,20000,20000⟩) (by decide)).mpr (by decide) _ s hrun⟩

/-- The browser answers ten minutes after the offer. -/
def lateAnswer : List Action :=
  [.allocate₁,.allocate₂,.allocate true,.offer,.tick 600000,.answer []]

/-- The relay candidate is still on offer when its allocation has run out. -/
theorem allocation_expired : ¬ ∀ as s, RelayRun as s → AllocationFresh s := by
  intro h
  obtain ⟨s,hrun,hp⟩ := exists_run_of_replay step {} lateAnswer
    (fun s => s.turn = true ∧ s.point = .candidates ∧ s.now = 600000 ∧ s.sentAt = 0) (by decide)
  obtain ⟨hturn,hpoint,hnow,hsent⟩ := of_decide_eq_true hp
  have hfresh := h _ s hrun hturn (.inr (by simp [hpoint,Point.Looping]))
  rw [hnow,hsent] at hfresh
  exact absurd hfresh (by decide)

end Relay
end AnyKvm
