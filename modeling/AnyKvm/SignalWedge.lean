import AnyKvm.SignalTally

/-! When the signal task of a session blocks for good.
Which messages of the server wedge the session is decided by how many candidates precede the
first answer and by how many answers there are. -/
namespace AnyKvm
namespace Agent

open Transition

section Machine
variable {Raw Sdp Cand : Type*} (fromStr : Raw → Option (SignalMsg Sdp Cand)) (accepts : Sdp → Bool)

/-- The steps of `webrtc::run` while the peer connection lives and nothing fails. -/
def Live : Action Raw → Prop
  | .gather ok => ok = true
  | .checkAlive alive => alive = true
  | .selected ok => ok = true
  | .event e => e ≠ .iceConnectionStateChange .disconnected
  | .recvAnswer | .recvCand | .candsDone | .hidSent | .pollTimeout => True
  | _ => False

/-- The signal task is blocked on a full channel that will not be read. -/
def Wedged (s : Session Sdp Cand) : Prop :=
  s.webrtc ≠ .ended ∧
    (s.signal.answer?.isSome = true ∧ s.answers.isFull = true ∧ NeverReads fromStr accepts Live .recvAnswer s ∨
      s.signal.cand?.isSome = true ∧ s.cands.isFull = true ∧ NeverReads fromStr accepts Live .recvCand s)

/-- At most 64 candidates come before the first answer, and at most five answers in all if the first
one is accepted. -/
def Fits (ms : List Raw) : Prop :=
  ((incoming fromStr ms).takeWhile Sum.isRight).length ≤ 64 ∧
    ∀ sdp, (answersOf (incoming fromStr ms)).head? = some sdp → accepts sdp = true →
      (answersOf (incoming fromStr ms)).length ≤ 5

variable {fromStr accepts} {as : List (Action Raw)} {s s' : Session Sdp Cand} {a : Action Raw}
variable {ms : List Raw} {l l' : List (Sdp ⊕ Cand)}

theorem not_neverReads_recvCand (hloop : s.webrtc.inLoop = true) (hitems : s.cands.items ≠ []) :
    ¬ NeverReads fromStr accepts Live .recvCand s := by
  have hcands : ∀ t : Session Sdp Cand, t.webrtc = .cands → t.cands.items ≠ [] →
      ¬ NeverReads fromStr accepts Live .recvCand t := by
    intro t hphase ht h
    obtain ⟨cand,rest,hcons⟩ := List.exists_cons_of_ne_nil ht
    have hs : Agent.step fromStr accepts t .recvCand = some { t with cands := t.cands.tail } := by
      refine step_eq_some.mpr ⟨hphase,recvCand_eq_some.mpr ⟨cand,t.cands.tail,?_,rfl⟩⟩
      rw [BoundedQueue.items_tail,hcons]
      rfl
    exact (h.step hs trivial).1 rfl
  have hhead : ∀ t : Session Sdp Cand, t.webrtc = .head → t.cands.items ≠ [] →
      ¬ NeverReads fromStr accepts Live .recvCand t := by
    intro t hphase ht h
    have hs : Agent.step fromStr accepts t (.checkAlive true) = some { t with webrtc := .cands } :=
      step_eq_some.mpr ⟨hphase,rfl⟩
    exact hcands { t with webrtc := .cands } rfl ht (h.step hs rfl).2
  have hselect : ∀ t : Session Sdp Cand, t.webrtc = .select → t.cands.items ≠ [] →
      ¬ NeverReads fromStr accepts Live .recvCand t := by
    intro t hphase ht h
    have hs : Agent.step fromStr accepts t (.selected true) = some { t with webrtc := .head } :=
      step_eq_some.mpr ⟨hphase,rfl⟩
    exact hhead { t with webrtc := .head } rfl ht (h.step hs rfl).2
  have hpoll : ∀ t : Session Sdp Cand, t.webrtc = .poll → t.cands.items ≠ [] →
      ¬ NeverReads fromStr accepts Live .recvCand t := by
    intro t hphase ht h
    have hs : Agent.step fromStr accepts t .pollTimeout = some { t with webrtc := .select } :=
      step_eq_some.mpr ⟨hphase,rfl⟩
    exact hselect { t with webrtc := .select } rfl ht (h.step hs trivial).2
  cases hphase : s.webrtc with
  | head => exact hhead s hphase hitems
  | cands => exact hcands s hphase hitems
  | poll => exact hpoll s hphase hitems
  | select => exact hselect s hphase hitems
  | sendHid data =>
    intro h
    have hs : Agent.step fromStr accepts s .hidSent = some { s with webrtc := .poll } :=
      step_eq_some.mpr ⟨⟨data,hphase⟩,rfl⟩
    exact hpoll { s with webrtc := .poll } rfl hitems (h.step hs trivial).2
  | _ => rw [hphase] at hloop; cases hloop

/-- While it waits, `webrtc::run` takes an answer that is there, and then goes for the candidates. -/
theorem not_neverReads_waiting (hphase : s.webrtc = .waiting) (hanswers : s.answers.items ≠ []) :
    ¬ NeverReads fromStr accepts Live .recvAnswer s ∧
      (s.cands.items ≠ [] → ¬ NeverReads fromStr accepts Live .recvCand s) := by
  obtain ⟨sdp,rest,hcons⟩ := List.exists_cons_of_ne_nil hanswers
  have hs : Agent.step fromStr accepts s .recvAnswer = some { s with
      webrtc := if accepts sdp then .head else .ended, answers := s.answers.tail, taken := some sdp } := by
    refine step_eq_some.mpr ⟨hphase,recvAnswer_eq_some.mpr (.inl ⟨sdp,s.answers.tail,?_,rfl⟩)⟩
    rw [BoundedQueue.items_tail,hcons]
    rfl
  refine ⟨fun h => (h.step hs trivial).1 rfl,fun hitems h => ?_⟩
  have hnext := (h.step hs trivial).2
  by_cases hacc : accepts sdp = true
  · rw [if_pos hacc] at hnext
    exact not_neverReads_recvCand (s := { s with
      webrtc := .head, answers := s.answers.tail, taken := some sdp }) rfl hitems hnext
  · rw [if_neg hacc] at hnext
    exact (hnext [] _ .init (by simp)).1 rfl

theorem length_candsOf_le (hmore : l <+: l') (hnone : answersOf l = []) :
    (candsOf l).length ≤ (l'.takeWhile Sum.isRight).length := by
  induction l generalizing l' with
  | nil => exact Nat.zero_le _
  | cons msg l ih =>
    obtain ⟨rest,rfl⟩ := hmore
    cases msg with
    | inl sdp => simp [answersOf] at hnone
    | inr cand =>
      have h := ih (List.prefix_append l rest) (by simpa [answersOf] using hnone)
      rw [List.cons_append,List.takeWhile_cons_of_pos rfl]
      simpa [candsOf] using h

theorem Fits.not_wedged (hfits : Fits fromStr accepts ms) (htally : Tally accepts (incoming fromStr (texts as)) s)
    (hmore : texts as <+: ms) : ¬ Wedged fromStr accepts s := by
  have hin : incoming fromStr (texts as) <+: incoming fromStr ms := hmore.filterMap _
  have hans : answersOf (incoming fromStr (texts as)) <+: answersOf (incoming fromStr ms) := hin.filterMap _
  rintro ⟨hne,⟨hsignal,hfull,hnever⟩ | ⟨hsignal,hfull,hnever⟩⟩
  · have hlen := BoundedQueue.isFull_iff.mp hfull
    have hanswers := htally.answers hne
    cases hphase : s.webrtc with
    | gathering => rw [(htally.gathering hphase).1] at hsignal; cases hsignal
    | waiting =>
      exact (not_neverReads_waiting hphase (by intro hnil; rw [hnil] at hlen; cases hlen)).1 hnever
    | ended => exact hne hphase
    | _ =>
      obtain ⟨sdp,htaken,hacc⟩ := htally.late (by rw [hphase]; rfl)
      obtain ⟨next,hnext⟩ := Option.isSome_iff_exists.mp hsignal
      rw [htaken,hnext] at hanswers
      have hcount := hans.length_le
      have hhead : (answersOf (incoming fromStr ms)).head? = some sdp := by
        obtain ⟨rest,hrest⟩ := hans
        rw [← hrest,hanswers]
        rfl
      have hfive := hfits.2 sdp hhead hacc
      rw [hanswers] at hcount
      simp [hlen] at hcount
      omega
  · have hlen := BoundedQueue.isFull_iff.mp hfull
    have hitems : s.cands.items ≠ [] := by intro hnil; rw [hnil] at hlen; cases hlen
    obtain ⟨cand,hcand⟩ := Option.isSome_iff_exists.mp hsignal
    cases hphase : s.webrtc with
    | gathering => rw [(htally.gathering hphase).1] at hsignal; cases hsignal
    | waiting =>
      by_cases hanswers : s.answers.items = []
      · have hnone := htally.early (.inr hphase)
        have hempty : answersOf (incoming fromStr (texts as)) = [] := by
          rw [htally.answers hne,hnone,hanswers]
          cases hsig : s.signal <;> simp_all [SignalPhase.answer?,SignalPhase.cand?]
        have hle := length_candsOf_le hin hempty
        rw [htally.cands hne hnone,hcand] at hle
        have hfew := hfits.1
        simp [hlen] at hle
        omega
      · exact (not_neverReads_waiting hphase hanswers).2 hitems hnever
    | ended => exact hne hphase
    | _ => exact not_neverReads_recvCand (by rw [hphase]; rfl) hitems hnever

/-- Some run from one state to another reads these messages. -/
def Reads (fromStr : Raw → Option (SignalMsg Sdp Cand)) (accepts : Sdp → Bool) (rs : List Raw)
    (s t : Session Sdp Cand) : Prop :=
  ∃ as, Run (Agent.step fromStr accepts) s as t ∧ texts as = rs

theorem texts_append (as bs : List (Action Raw)) : texts (bs ++ as) = texts as ++ texts bs := by
  induction bs with
  | nil => simp [texts]
  | cons b bs ih =>
    cases b with
    | read msg => cases msg <;> simp [texts,ih]
    | _ => simpa [texts] using ih

variable {rs rs' : List Raw} {t u : Session Sdp Cand} {raw : Raw}

theorem Reads.refl (s : Session Sdp Cand) : Reads fromStr accepts [] s s := ⟨[],.init,rfl⟩

theorem Reads.trans (h₁ : Reads fromStr accepts rs s t) (h₂ : Reads fromStr accepts rs' t u) :
    Reads fromStr accepts (rs ++ rs') s u := by
  obtain ⟨as,hrun,rfl⟩ := h₁
  obtain ⟨bs,hrun',rfl⟩ := h₂
  exact ⟨bs ++ as,hrun.trans hrun',texts_append as bs⟩

theorem Reads.single (h : Agent.step fromStr accepts s a = some t) : Reads fromStr accepts (texts [a]) s t :=
  ⟨[a],.single h,rfl⟩

theorem reads_text (fromStr : Raw → Option (SignalMsg Sdp Cand)) (accepts : Sdp → Bool) (raw : Raw)
    (hsignal : s.signal = .reading) :
    Reads fromStr accepts [raw] s (s.handleIncoming fromStr raw) :=
  .single (a := .read (.text raw)) (step_eq_some.mpr ⟨hsignal,rfl⟩)

theorem reads_cand (accepts : Sdp → Bool) {cand : Cand} (hsignal : s.signal = .reading) (hne : s.webrtc ≠ .ended)
    (hraw : incoming? fromStr raw = some (.inr cand)) (hroom : s.cands.items.length < 64) :
    ∃ cands, cands.items = s.cands.items ++ [cand] ∧
      Reads fromStr accepts [raw] s { s with cands := cands } := by
  have hread : Reads fromStr accepts [raw] s { s with signal := .sendCand cand } := by
    have h := reads_text fromStr accepts raw hsignal
    rwa [handleIncoming_eq,hraw] at h
  obtain ⟨cands,hpush⟩ : ∃ cands, s.cands.push? cand = some cands :=
    ⟨⟨_,BoundedQueue.length_snoc_le hroom cand⟩,BoundedQueue.push?_eq_some.mpr ⟨hroom,rfl⟩⟩
  have hsent : Agent.step fromStr accepts { s with signal := .sendCand cand } .sent =
      some { s with cands := cands } := by
    refine step_eq_some.mpr (sent_eq_some.mpr (.inr ⟨cand,rfl,.inr ⟨hne,cands,hpush,?_⟩⟩))
    rw [← hsignal]
  exact ⟨cands,BoundedQueue.items_of_push? hpush,hread.trans (.single hsent)⟩

theorem reads_answer (accepts : Sdp → Bool) {sdp : Sdp} (hsignal : s.signal = .reading) (hne : s.webrtc ≠ .ended)
    (hraw : incoming? fromStr raw = some (.inl sdp)) (hroom : s.answers.items.length < 4) :
    ∃ answers, answers.items = s.answers.items ++ [sdp] ∧
      Reads fromStr accepts [raw] s { s with answers := answers } := by
  have hread : Reads fromStr accepts [raw] s { s with signal := .sendAnswer sdp } := by
    have h := reads_text fromStr accepts raw hsignal
    rwa [handleIncoming_eq,hraw] at h
  obtain ⟨answers,hpush⟩ : ∃ answers, s.answers.push? sdp = some answers :=
    ⟨⟨_,BoundedQueue.length_snoc_le hroom sdp⟩,BoundedQueue.push?_eq_some.mpr ⟨hroom,rfl⟩⟩
  have hsent : Agent.step fromStr accepts { s with signal := .sendAnswer sdp } .sent =
      some { s with answers := answers } := by
    refine step_eq_some.mpr (sent_eq_some.mpr (.inl ⟨sdp,rfl,.inr ⟨hne,answers,hpush,?_⟩⟩))
    rw [← hsignal]
  exact ⟨answers,BoundedQueue.items_of_push? hpush,hread.trans (.single hsent)⟩

theorem reads_ignored (hsignal : s.signal = .reading) (hraw : incoming? fromStr raw = none) :
    Reads fromStr accepts [raw] s s := by
  have h := reads_text fromStr accepts raw hsignal
  rwa [handleIncoming_eq,hraw] at h

theorem incoming_cons_none (hraw : incoming? fromStr raw = none) :
    incoming fromStr (raw :: ms) = incoming fromStr ms := by
  simp [incoming,hraw]

theorem incoming_cons_some {msg : Sdp ⊕ Cand} (hraw : incoming? fromStr raw = some msg) :
    incoming fromStr (raw :: ms) = msg :: incoming fromStr ms := by
  simp [incoming,hraw]

/-- Messages without an answer fill the queue of candidates. -/
theorem reads_cands (accepts : Sdp → Bool) (hsignal : s.signal = .reading) (hne : s.webrtc ≠ .ended)
    (hnone : answersOf (incoming fromStr rs) = [])
    (hroom : s.cands.items.length + (candsOf (incoming fromStr rs)).length ≤ 64) :
    ∃ cands, cands.items.length = s.cands.items.length + (candsOf (incoming fromStr rs)).length ∧
      Reads fromStr accepts rs s { s with cands := cands } := by
  induction rs generalizing s with
  | nil => exact ⟨s.cands,rfl,.refl s⟩
  | cons raw rs ih =>
    cases hraw : incoming? fromStr raw with
    | none =>
      rw [incoming_cons_none hraw] at hnone hroom ⊢
      obtain ⟨cands,hlen,hreads⟩ := ih hsignal hne hnone hroom
      exact ⟨cands,hlen,(reads_ignored hsignal hraw).trans hreads⟩
    | some msg =>
      rw [incoming_cons_some hraw] at hnone hroom ⊢
      cases msg with
      | inl sdp => cases hnone
      | inr cand =>
        have hcount : (candsOf (.inr cand :: incoming fromStr rs)).length =
            (candsOf (incoming fromStr rs)).length + 1 := rfl
        rw [hcount] at hroom ⊢
        obtain ⟨cands,hitems,hfirst⟩ := reads_cand accepts hsignal hne hraw (by omega)
        have hlen : cands.items.length = s.cands.items.length + 1 := by rw [hitems]; simp
        obtain ⟨cands',hlen',hrest⟩ := ih (s := { s with cands := cands }) hsignal hne hnone
          (by simp only [hlen]; omega)
        refine ⟨cands',?_,hfirst.trans hrest⟩
        simp only [hlen] at hlen'
        omega

/-- In the loop over the candidates all that are queued can be taken. -/
theorem reads_drain (fromStr : Raw → Option (SignalMsg Sdp Cand)) (accepts : Sdp → Bool)
    (hphase : s.webrtc = .cands) : Reads fromStr accepts [] s { s with cands := .empty } := by
  obtain ⟨n,hn⟩ : ∃ n, s.cands.items.length = n := ⟨_,rfl⟩
  induction n generalizing s with
  | zero =>
    have hempty : s.cands = .empty := BoundedQueue.ext (List.length_eq_zero_iff.mp hn)
    rw [← hempty]
    exact .refl s
  | succ n ih =>
    obtain ⟨cand,rest,hcons⟩ := List.exists_cons_of_length_eq_add_one hn
    have htail : s.cands.items = cand :: s.cands.tail.items := by rw [BoundedQueue.items_tail,hcons]; rfl
    have hs : Agent.step fromStr accepts s .recvCand = some { s with cands := s.cands.tail } :=
      step_eq_some.mpr ⟨hphase,recvCand_eq_some.mpr ⟨cand,s.cands.tail,htail,rfl⟩⟩
    have hrest := ih (s := { s with cands := s.cands.tail }) hphase (by simp [hn])
    exact (Reads.single hs).trans hrest

theorem reads_in_loop (fromStr : Raw → Option (SignalMsg Sdp Cand)) (accepts : Sdp → Bool) (rs : List Raw)
    (hphase : s.webrtc = .cands) (hsignal : s.signal = .reading)
    (hempty : s.cands = .empty)
    (hroom : s.answers.items.length + (answersOf (incoming fromStr rs)).length ≤ 4) :
    ∃ answers, answers.items.length = s.answers.items.length + (answersOf (incoming fromStr rs)).length ∧
      Reads fromStr accepts rs s { s with answers := answers } := by
  have hne : s.webrtc ≠ .ended := by rw [hphase]; simp
  induction rs generalizing s with
  | nil => exact ⟨s.answers,rfl,.refl s⟩
  | cons raw rs ih =>
    cases hraw : incoming? fromStr raw with
    | none =>
      rw [incoming_cons_none hraw] at hroom ⊢
      obtain ⟨answers,hlen,hreads⟩ := ih hphase hsignal hempty hroom hne
      exact ⟨answers,hlen,(reads_ignored hsignal hraw).trans hreads⟩
    | some msg =>
      rw [incoming_cons_some hraw] at hroom ⊢
      cases msg with
      | inl sdp =>
        have hcount : (answersOf (.inl sdp :: incoming fromStr rs)).length =
            (answersOf (incoming fromStr rs)).length + 1 := rfl
        rw [hcount] at hroom ⊢
        obtain ⟨answers,hitems,hfirst⟩ := reads_answer accepts hsignal hne hraw (by omega)
        have hlen : answers.items.length = s.answers.items.length + 1 := by rw [hitems]; simp
        obtain ⟨answers',hlen',hrest⟩ := ih (s := { s with answers := answers }) hphase hsignal hempty
          (by simp only [hlen]; omega) hne
        refine ⟨answers',?_,hfirst.trans hrest⟩
        simp only [hlen] at hlen'
        omega
      | inr cand =>
        obtain ⟨cands,_,hfirst⟩ := reads_cand accepts hsignal hne hraw (by simp [hempty])
        have hdrain := reads_drain fromStr accepts (s := { s with cands := cands }) hphase
        obtain ⟨answers,hlen,hrest⟩ := ih hphase hsignal hempty hroom hne
        have hback : ({ s with cands := .empty } : Session Sdp Cand) = s := by rw [← hempty]
        rw [hback] at hdrain
        exact ⟨answers,hlen,(hfirst.trans hdrain).trans hrest⟩

/-- Split messages at the candidate that follows the first `n` candidates. -/
theorem split_cands {n : ℕ} (h : n < ((incoming fromStr ms).takeWhile Sum.isRight).length) :
    ∃ rs raw rest cand, ms = rs ++ raw :: rest ∧ answersOf (incoming fromStr rs) = [] ∧
      (candsOf (incoming fromStr rs)).length = n ∧ incoming? fromStr raw = some (.inr cand) := by
  induction ms generalizing n with
  | nil => cases h
  | cons raw ms ih =>
    cases hraw : incoming? fromStr raw with
    | none =>
      rw [incoming_cons_none hraw] at h
      obtain ⟨rs,raw',rest,cand,rfl,hnone,hlen,hcand⟩ := ih h
      refine ⟨raw :: rs,raw',rest,cand,rfl,?_,?_,hcand⟩
      · rwa [incoming_cons_none hraw]
      · rwa [incoming_cons_none hraw]
    | some msg =>
      rw [incoming_cons_some hraw] at h
      cases msg with
      | inl sdp => cases h
      | inr cand =>
        cases n with
        | zero => exact ⟨[],raw,ms,cand,rfl,rfl,rfl,hraw⟩
        | succ n =>
          rw [List.takeWhile_cons_of_pos rfl,List.length_cons,Nat.add_lt_add_iff_right] at h
          obtain ⟨rs,raw',rest,cand',rfl,hnone,hlen,hcand⟩ := ih h
          refine ⟨raw :: rs,raw',rest,cand',rfl,?_,?_,hcand⟩
          · rw [incoming_cons_some hraw]
            exact hnone
          · rw [incoming_cons_some hraw]
            exact congrArg Nat.succ hlen

/-- Split messages at the answer that follows the first `n` answers. -/
theorem split_answers {n : ℕ} (h : n < (answersOf (incoming fromStr ms)).length) :
    ∃ rs raw rest sdp, ms = rs ++ raw :: rest ∧ (answersOf (incoming fromStr rs)).length = n ∧
      incoming? fromStr raw = some (.inl sdp) := by
  induction ms generalizing n with
  | nil => cases h
  | cons raw ms ih =>
    cases hraw : incoming? fromStr raw with
    | none =>
      rw [incoming_cons_none hraw] at h
      obtain ⟨rs,raw',rest,sdp,rfl,hlen,hsdp⟩ := ih h
      exact ⟨raw :: rs,raw',rest,sdp,rfl,by rwa [incoming_cons_none hraw],hsdp⟩
    | some msg =>
      rw [incoming_cons_some hraw] at h
      cases msg with
      | inl sdp =>
        cases n with
        | zero => exact ⟨[],raw,ms,sdp,rfl,rfl,hraw⟩
        | succ n =>
          obtain ⟨rs,raw',rest,sdp',rfl,hlen,hsdp⟩ := ih (Nat.lt_of_succ_lt_succ h)
          refine ⟨raw :: rs,raw',rest,sdp',rfl,?_,hsdp⟩
          rw [incoming_cons_some hraw]
          exact congrArg Nat.succ hlen
      | inr cand =>
        obtain ⟨rs,raw',rest,sdp,rfl,hlen,hsdp⟩ := ih h
        refine ⟨raw :: rs,raw',rest,sdp,rfl,?_,hsdp⟩
        rw [incoming_cons_some hraw]
        exact hlen

theorem neverReads_of_waiting (hphase : s.webrtc = .waiting) (hanswers : s.answers.items = [])
    (hsignal : s.signal.isEnded = false) {read : Action Raw} : NeverReads fromStr accepts Live read s := by
  have hstay : ∀ bs t, Run (Agent.step fromStr accepts) s bs t → (∀ b ∈ bs, Live b) → t = s ∧ bs = [] := by
    intro bs t h
    induction h with
    | init => exact fun _ => ⟨rfl,rfl⟩
    | @next bs t t' b _ hs ih =>
      intro hlive
      obtain ⟨rfl,rfl⟩ := ih fun b hb => hlive b (List.mem_cons_of_mem _ hb)
      have hb := hlive b List.mem_cons_self
      have hs := step_eq_some.mp hs
      cases b with
      | recvAnswer =>
        rcases recvAnswer_eq_some.mp hs.2 with ⟨_,_,hitems,_⟩ | ⟨_,hended,_⟩
        · rw [hanswers] at hitems
          cases hitems
        · rw [hsignal] at hended
          cases hended
      | _ => simp_all [Live]
  intro bs t hrun hlive
  obtain ⟨rfl,rfl⟩ := hstay bs t hrun hlive
  exact ⟨by simp [hphase],by simp⟩

/-- In the main loop the answers are never read again. -/
theorem neverReads_of_inLoop (hloop : s.webrtc.inLoop = true) :
    NeverReads fromStr accepts Live .recvAnswer s := by
  refine neverReads_of_kept (I := fun t => t.webrtc.inLoop = true) (fun _ ht => ht) ?_ hloop
  intro t b t' ht hb hs
  refine (inLoop_step hs ht).2.resolve_right fun ⟨hleaves,_⟩ => ?_
  cases b with
  | checkAlive alive => exact absurd (hb.symm.trans hleaves) (by simp)
  | selected ok => exact absurd (hb.symm.trans hleaves) (by simp)
  | event e => exact hb hleaves.1
  | pollError => exact hb
  | abort => exact hb
  | _ => exact hleaves

/-- The offer is made, and the signal task has sent it to the server. -/
def offering (peerConnected keyframe : Bool) : Session Sdp Cand :=
  { Session.start peerConnected keyframe with webrtc := .waiting, signal := .reading, offered := true }

theorem reads_offering (fromStr : Raw → Option (SignalMsg Sdp Cand)) (accepts : Sdp → Bool)
    (peerConnected keyframe : Bool) :
    Reads fromStr accepts [] (.start peerConnected keyframe) (offering peerConnected keyframe) :=
  ⟨[.sendOffer true,.connect true,.recvOffer,.gather true],
    .next (.next (.next (.next .init rfl) rfl) rfl) rfl,rfl⟩

variable {peerConnected keyframe : Bool}

/-- More than 64 candidates before the first answer block the task on the queue of candidates. -/
theorem wedged_of_cands (accepts : Sdp → Bool) (peerConnected keyframe : Bool)
    (h : 64 < ((incoming fromStr ms).takeWhile Sum.isRight).length) :
    ∃ rs s, Reads fromStr accepts rs (.start peerConnected keyframe) s ∧ rs <+: ms ∧
      Wedged fromStr accepts s := by
  obtain ⟨rs,raw,rest,cand,rfl,hnone,hlen,hraw⟩ := split_cands h
  obtain ⟨cands,hcands,hreads⟩ := reads_cands accepts
    (s := offering peerConnected keyframe) rfl (by simp [offering]) hnone (by rw [hlen]; exact le_rfl)
  have hlast := reads_text fromStr accepts raw
    (s := { offering peerConnected keyframe with cands := cands }) rfl
  rw [handleIncoming_eq,hraw] at hlast
  refine ⟨rs ++ [raw],_,((reads_offering _ _ _ _).trans hreads).trans hlast,?_,?_⟩
  · exact ⟨rest,by simp⟩
  · refine ⟨by simp [offering],.inr ⟨rfl,?_,neverReads_of_waiting rfl rfl rfl⟩⟩
    rw [BoundedQueue.isFull_iff,hcands,hlen]
    rfl

theorem wedged_of_answers (accepts : Sdp → Bool) (peerConnected keyframe : Bool)
    (hcands : ((incoming fromStr ms).takeWhile Sum.isRight).length ≤ 64) {sdp : Sdp}
    (hfirst : (answersOf (incoming fromStr ms)).head? = some sdp) (hacc : accepts sdp = true)
    (hcount : 5 < (answersOf (incoming fromStr ms)).length) :
    ∃ rs s, Reads fromStr accepts rs (.start peerConnected keyframe) s ∧ rs <+: ms ∧
      Wedged fromStr accepts s := by
  obtain ⟨rs,raw,rest,sdp₁,rfl,hnone,hraw⟩ := split_answers (Nat.zero_lt_of_lt hcount)
  have hnone := List.length_eq_zero_iff.mp hnone
  have hsplit : answersOf (incoming fromStr (rs ++ raw :: rest)) = sdp₁ :: answersOf (incoming fromStr rest) := by
    rw [incoming,List.filterMap_append,answersOf,List.filterMap_append]
    change answersOf (incoming fromStr rs) ++ answersOf (incoming fromStr (raw :: rest)) = _
    rw [hnone,incoming_cons_some hraw]
    rfl
  rw [hsplit] at hfirst hcount
  cases hfirst
  have hle : (candsOf (incoming fromStr rs)).length ≤ _ :=
    length_candsOf_le ((List.prefix_append rs (raw :: rest)).filterMap (incoming? fromStr)) hnone
  obtain ⟨cands,_,hreads⟩ := reads_cands accepts
    (s := offering peerConnected keyframe) rfl (by simp [offering]) hnone
    (by simpa [offering,Session.start] using hle.trans hcands)
  obtain ⟨answers,hitems,hanswer⟩ := reads_answer accepts
    (s := { offering peerConnected keyframe with cands := cands }) rfl (by simp [offering]) hraw
    (by simp [offering,Session.start])
  have htake : Reads fromStr accepts []
      { offering peerConnected keyframe with cands := cands, answers := answers }
      { offering peerConnected keyframe with
        cands := cands, answers := .empty, webrtc := .cands, taken := some sdp } := by
    have hs : Agent.step fromStr accepts
        { offering peerConnected keyframe with cands := cands, answers := answers } .recvAnswer =
        some { offering peerConnected keyframe with
          cands := cands, answers := .empty, webrtc := .head, taken := some sdp } :=
      step_eq_some.mpr ⟨rfl,recvAnswer_eq_some.mpr (.inl ⟨sdp,.empty,hitems,by rw [if_pos hacc]⟩)⟩
    have hs' : Agent.step fromStr accepts { offering peerConnected keyframe with
          cands := cands, answers := .empty, webrtc := .head, taken := some sdp } (.checkAlive true) =
        some { offering peerConnected keyframe with
          cands := cands, answers := .empty, webrtc := .cands, taken := some sdp } :=
      step_eq_some.mpr ⟨rfl,rfl⟩
    exact (Reads.single hs).trans (.single hs')
  have hdrain := reads_drain fromStr accepts (s := { offering peerConnected keyframe with
    cands := cands, answers := .empty, webrtc := .cands, taken := some sdp }) rfl
  obtain ⟨rs',raw',rest',sdp',rfl,hfour,hraw'⟩ := split_answers (Nat.lt_of_succ_lt_succ hcount)
  obtain ⟨answers',hlen,hmore⟩ := reads_in_loop fromStr accepts rs'
    (s := { offering peerConnected keyframe with
      cands := .empty, answers := .empty, webrtc := .cands, taken := some sdp }) rfl rfl rfl
    (by rw [hfour]; exact le_rfl)
  have hlast := reads_text fromStr accepts raw' (s := { offering peerConnected keyframe with
    cands := .empty, answers := answers', webrtc := .cands, taken := some sdp }) rfl
  rw [handleIncoming_eq,hraw'] at hlast
  refine ⟨_,_,((((((reads_offering _ _ _ _).trans hreads).trans hanswer).trans htake).trans
    hdrain).trans hmore).trans hlast,?_,?_⟩
  · exact ⟨rest',by simp⟩
  · refine ⟨by simp,.inl ⟨rfl,?_,neverReads_of_inLoop rfl⟩⟩
    rw [BoundedQueue.isFull_iff,hlen,hfour]
    rfl

/-- No order of the steps of a session wedges the signal task on these messages exactly if they fit. -/
theorem never_wedged_iff (ms : List Raw) :
    (∀ as s, Run (Agent.step fromStr accepts) (.start peerConnected keyframe) as s → texts as <+: ms →
      ¬ Wedged fromStr accepts s) ↔ Fits fromStr accepts ms := by
  constructor
  · intro h
    have hfree : ∀ rs s, Reads fromStr accepts rs (.start peerConnected keyframe) s → rs <+: ms →
        ¬ Wedged fromStr accepts s := by
      rintro rs s ⟨as,hrun,rfl⟩ hmore
      exact h as s hrun hmore
    have hcands : ((incoming fromStr ms).takeWhile Sum.isRight).length ≤ 64 := by
      by_contra hmany
      obtain ⟨rs,s,hreads,hmore,hwedged⟩ := wedged_of_cands accepts peerConnected keyframe
        (Nat.lt_of_not_le hmany)
      exact hfree rs s hreads hmore hwedged
    refine ⟨hcands,fun sdp hfirst hacc => ?_⟩
    by_contra hmany
    obtain ⟨rs,s,hreads,hmore,hwedged⟩ := wedged_of_answers accepts peerConnected keyframe hcands hfirst
      hacc (Nat.lt_of_not_le hmany)
    exact hfree rs s hreads hmore hwedged
  · intro hfits as s hrun hmore
    exact hfits.not_wedged (tally hrun) hmore

end Machine

/-- Six browsers answer the offer of one session. -/
def sixAnswers : List (SignalMsg String String) := List.replicate 6 ⟨"answer",some "v=0",none⟩

theorem six_answers_wedge :
    ¬ ∀ as s, Run (Agent.step some fun _ => true) (.start false false) as s → texts as <+: sixAnswers →
      ¬ Wedged some (fun _ => true) s := by
  intro h
  have hcands : ((incoming some sixAnswers).takeWhile Sum.isRight).length ≤ 64 := by decide
  have hfirst : (answersOf (incoming some sixAnswers)).head? = some "v=0" := by decide
  have hcount : 5 < (answersOf (incoming some sixAnswers)).length := by decide
  obtain ⟨rs,s,⟨as,hrun,rfl⟩,hmore,hwedged⟩ :=
    wedged_of_answers (fun _ => true) false false hcands hfirst rfl hcount
  exact h as s hrun hmore hwedged

end Agent
end AnyKvm
