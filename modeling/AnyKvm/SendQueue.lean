import AnyKvm.Outcome
import Mathlib.Algebra.BigOperators.Group.List.Basic
import Mathlib.Data.List.Induction
import Mathlib.Tactic.Ring

/-! The queue in front of an outgoing RTP stream, and the totals that it keeps for the pacer.
Times are instants of one monotone clock; `none` stands for `not_happening()`, the time that a
packet has until the first timeout after it was pushed. -/
namespace AnyKvm.Streams

structure RtpHeader where
  marker : Bool
  payloadType : ℕ
  sequenceNumber : ℕ
  timestamp : ℕ
  ssrc : ℕ
  deriving DecidableEq, Repr

structure RtpPacket where
  seqNo : ℕ
  header : RtpHeader
  payload : Bytes
  timestamp : Option ℕ
  nackable : Bool
  deriving DecidableEq, Repr

structure TotalQueue where
  /-- Number of unsent packets. -/
  unsentCount : ℕ := 0
  /-- The data size (bytes) of the unsent packets. -/
  unsentSize : ℕ := 0
  /-- The total queue time of all the unsent packets. -/
  queueTime : ℕ := 0
  last : Option ℕ := none
  deriving DecidableEq, Repr

namespace TotalQueue

def moveTimeForward (t : TotalQueue) (now : ℕ) : Panicking TotalQueue :=
  match t.last with
  | some last =>
    if 0 < t.unsentCount then
      .ok { t with queueTime := t.queueTime+(now-last)*t.unsentCount,last := some now }
    else .panicked
  | none =>
    if t.unsentCount = 0 ∧ t.unsentSize = 0 ∧ t.queueTime = 0 then .ok t else .panicked

def increase (t : TotalQueue) (now size : ℕ) : Panicking TotalQueue := do
  let t ← t.moveTimeForward now
  .ok { t with unsentCount := t.unsentCount+1,unsentSize := t.unsentSize+size,last := some now }

/-- The three subtractions panic when they would go below zero. -/
def decrease (t : TotalQueue) (now size queueTime : ℕ) : Panicking TotalQueue := do
  let t ← t.moveTimeForward now
  if t.unsentCount < 1 ∨ t.unsentSize < size ∨ t.queueTime < queueTime then .panicked
  else
    let t := { t with unsentCount := t.unsentCount-1,unsentSize := t.unsentSize-size,
                      queueTime := t.queueTime-queueTime }
    if t.unsentCount = 0 then
      if t.unsentSize = 0 then .ok { t with queueTime := 0,last := none } else .panicked
    else .ok t

end TotalQueue

structure SendQueue where
  queue : List RtpPacket := []
  total : TotalQueue := {}
  lastEmitted : Option ℕ := none
  deriving DecidableEq, Repr

inductive QueuePriority | media | padding | empty
  deriving DecidableEq, Repr

structure QueueSnapshot where
  createdAt : ℕ
  size : ℕ
  packetCount : ℕ
  totalQueueTimeOrigin : ℕ
  lastEmitted : Option ℕ
  firstUnsent : Option ℕ
  priority : QueuePriority
  deriving DecidableEq, Repr

namespace SendQueue

def push (q : SendQueue) (packet : RtpPacket) : SendQueue :=
  { q with queue := q.queue ++ [{ packet with timestamp := none }] }

/-- The loop of `handle_timeout`, over the packets from the back. -/
def stamp (now : ℕ) : List RtpPacket → TotalQueue → Panicking (List RtpPacket × TotalQueue)
  | [],total => .ok ([],total)
  | pkt :: rest,total =>
    if pkt.timestamp ≠ none then .ok (pkt :: rest,total)
    else do
      let total ← total.increase now pkt.payload.length
      let (rest,total) ← stamp now rest total
      .ok ({ pkt with timestamp := some now } :: rest,total)

def handleTimeout (q : SendQueue) (now : ℕ) : Panicking SendQueue := do
  let (queue,total) ← stamp now q.queue.reverse q.total
  .ok { q with queue := queue.reverse,total }

def needTimeout (q : SendQueue) : Bool :=
  q.queue.any fun p => p.timestamp = none

def peek (q : SendQueue) : Option RtpPacket :=
  match q.queue with
  | [] => none
  | pkt :: _ => if pkt.timestamp = none then none else some pkt

def setHead (q : SendQueue) (pkt : RtpPacket) : SendQueue :=
  { q with queue := pkt :: q.queue.tail }

def pop (q : SendQueue) (now : ℕ) : Panicking (Option RtpPacket × SendQueue) :=
  match q.queue with
  | [] => .ok (none,q)
  | packet :: queue =>
    match packet.timestamp with
    | none => .ok (none,q)
    | some timestamp => do
      let total ← q.total.decrease now packet.payload.length (now-timestamp)
      .ok (some packet,{ queue,total,lastEmitted := some now })

def isEmpty (q : SendQueue) : Bool := q.queue.isEmpty

def last (q : SendQueue) : Option RtpPacket := q.queue.getLast?

def snapshot (q : SendQueue) (now : ℕ) : Panicking (QueueSnapshot × SendQueue) := do
  let total ← q.total.moveTimeForward now
  .ok ({ createdAt := now
         size := total.unsentSize
         packetCount := total.unsentCount
         totalQueueTimeOrigin := total.queueTime
         lastEmitted := q.lastEmitted
         firstUnsent := (q.queue.find? fun p => p.timestamp ≠ none).bind (·.timestamp)
         priority := if 0 < total.unsentCount then .media else .empty },
       { q with total })

def clear (_q : SendQueue) : SendQueue := {}

end SendQueue

def RtpPacket.wait (now : ℕ) (p : RtpPacket) : ℕ :=
  (p.timestamp.map (now-·)).getD 0

def waits (now : ℕ) (packets : List RtpPacket) : ℕ := (packets.map (·.wait now)).sum

def sizes (packets : List RtpPacket) : ℕ := (packets.map (·.payload.length)).sum

def RtpPacket.stampedAt (now : ℕ) (p : RtpPacket) : RtpPacket := { p with timestamp := some now }

/-- The totals as of `seen` are those of the packets, but that the queue time includes what the
packets have waited that were sent since none was left. -/
structure TotalQueue.Counts (total : TotalQueue) (packets : List RtpPacket) (waited seen : ℕ) :
    Prop where
  count : total.unsentCount = packets.length
  size : total.unsentSize = sizes packets
  time : total.queueTime = waited+waits seen packets
  last : total.last = if packets = [] then none else some seen
  idle : packets = [] → waited = 0
  past : ∀ p ∈ packets, ∃ t ≤ seen, p.timestamp = some t

/-- What holds of the queue between two calls: the packets with a time come first, and the
totals count them. -/
structure SendQueue.Accounts (q : SendQueue) (clock waited : ℕ) (sending fresh : List RtpPacket) :
    Prop where
  queue : q.queue = sending ++ fresh
  fresh : ∀ p ∈ fresh, p.timestamp = none
  counts : ∃ last ≤ clock, q.total.Counts sending waited last

@[simp] theorem waits_nil (now : ℕ) : waits now [] = 0 := rfl

@[simp] theorem waits_cons (now : ℕ) (p : RtpPacket) (ps : List RtpPacket) :
    waits now (p :: ps) = p.wait now+waits now ps := List.sum_cons

@[simp] theorem waits_append (now : ℕ) (ps qs : List RtpPacket) :
    waits now (ps ++ qs) = waits now ps+waits now qs := by
  simp only [waits,List.map_append,List.sum_append]

@[simp] theorem sizes_nil : sizes [] = 0 := rfl

@[simp] theorem sizes_cons (p : RtpPacket) (ps : List RtpPacket) :
    sizes (p :: ps) = p.payload.length+sizes ps := List.sum_cons

@[simp] theorem sizes_append (ps qs : List RtpPacket) : sizes (ps ++ qs) = sizes ps+sizes qs := by
  simp only [sizes,List.map_append,List.sum_append]

@[simp] theorem wait_stampedAt (now : ℕ) (p : RtpPacket) : (p.stampedAt now).wait now = 0 :=
  Nat.sub_self now

theorem waits_later {packets : List RtpPacket} {last now : ℕ} (hle : last ≤ now)
    (hpast : ∀ p ∈ packets, ∃ t ≤ last, p.timestamp = some t) :
    waits now packets = waits last packets+(now-last)*packets.length := by
  induction packets with
  | nil => rfl
  | cons p ps ih =>
    obtain ⟨t,ht,hp⟩ := hpast p (.head _)
    have hwait : p.wait now = p.wait last+(now-last) := by
      simp only [RtpPacket.wait,hp,Option.map_some,Option.getD_some]
      omega
    rw [waits_cons,waits_cons,ih fun p h => hpast p (.tail _ h),hwait,List.length_cons]
    ring

namespace TotalQueue.Counts

variable {total : TotalQueue} {packets : List RtpPacket} {waited last now : ℕ}

theorem moveTimeForward (h : total.Counts packets waited last) (hle : last ≤ now) :
    ∃ total', total.moveTimeForward now = .ok total' ∧ total'.Counts packets waited now := by
  obtain ⟨hcount,hsize,htime,hlast,hidle,hpast⟩ := h
  have hpast' : ∀ p ∈ packets, ∃ t ≤ now, p.timestamp = some t := fun p hp =>
    (hpast p hp).imp fun t ht => ⟨ht.1.trans hle,ht.2⟩
  by_cases hnil : packets = []
  · subst hnil
    rw [if_pos rfl] at hlast
    have hzero : total.unsentCount = 0 ∧ total.unsentSize = 0 ∧ total.queueTime = 0 :=
      ⟨hcount,hsize,by rw [htime,hidle rfl]; rfl⟩
    refine ⟨total,?_,hcount,hsize,by rw [htime]; rfl,hlast,hidle,hpast'⟩
    simp only [TotalQueue.moveTimeForward,hlast,if_pos hzero]
  · rw [if_neg hnil] at hlast
    have hpos : 0 < total.unsentCount := by rw [hcount]; exact List.length_pos_iff.mpr hnil
    refine ⟨{ total with queueTime := total.queueTime+(now-last)*total.unsentCount,last := some now },
      ?_,hcount,hsize,?_,(if_neg hnil).symm,hidle,hpast'⟩
    · simp only [TotalQueue.moveTimeForward,hlast,if_pos hpos]
    · rw [waits_later hle hpast,← Nat.add_assoc,← htime,hcount]

theorem increase {front back : List RtpPacket} (h : total.Counts (front ++ back) waited last)
    (hle : last ≤ now) (p : RtpPacket) :
    ∃ total', total.increase now p.payload.length = .ok total' ∧
      total'.Counts (front ++ p.stampedAt now :: back) waited now := by
  obtain ⟨moved,hmove,hcount,hsize,htime,-,-,hpast⟩ := h.moveTimeForward hle
  refine ⟨_,by rw [TotalQueue.increase,hmove]; rfl,?_,?_,?_,?_,?_,?_⟩
  · simp only [hcount,List.length_append,List.length_cons]
    omega
  · simp only [hsize,sizes_append,sizes_cons,RtpPacket.stampedAt]
    omega
  · simp only [htime,waits_append,waits_cons,wait_stampedAt,Nat.zero_add]
  · rw [if_neg (by simp)]
  · intro hnil
    simp at hnil
  · intro q hq
    simp only [List.mem_append,List.mem_cons] at hq
    rcases hq with hq | rfl | hq
    · exact hpast q (List.mem_append_left _ hq)
    · exact ⟨now,le_rfl,rfl⟩
    · exact hpast q (List.mem_append_right _ hq)

theorem decrease {p : RtpPacket} (h : total.Counts (p :: packets) waited last) (hle : last ≤ now) :
    ∃ total', total.decrease now p.payload.length 0 = .ok total' ∧
      total'.Counts packets (if packets = [] then 0 else waited+p.wait now) now := by
  obtain ⟨moved,hmove,hcount,hsize,htime,hlast,-,hpast⟩ := h.moveTimeForward hle
  have hsizes : moved.unsentSize = p.payload.length+sizes packets := hsize
  have hlen : moved.unsentCount = packets.length+1 := hcount
  have hfits : ¬(moved.unsentCount < 1 ∨ moved.unsentSize < p.payload.length ∨
      moved.queueTime < 0) := by omega
  have hpast' : ∀ q ∈ packets, ∃ t ≤ now, q.timestamp = some t := fun q hq => hpast q (.tail _ hq)
  rw [TotalQueue.decrease,hmove,Outcome.ok_bind,if_neg hfits]
  dsimp only
  by_cases hnil : packets = []
  · subst hnil
    rw [sizes_nil] at hsizes
    rw [if_pos (by rw [hlen]; rfl),if_pos (by omega)]
    exact ⟨_,rfl,by simp only [hlen]; rfl,by simp only [hsizes,sizes_nil]; omega,rfl,rfl,fun _ => rfl,
      hpast'⟩
  · have hpos := List.length_pos_iff.mpr hnil
    rw [if_neg (by omega)]
    refine ⟨_,rfl,by simp only [hlen]; omega,by simp only [hsizes]; omega,?_,?_,?_,hpast'⟩
    · simp only [htime,waits_cons,if_neg hnil]
      omega
    · rw [if_neg hnil]
      exact hlast
    · exact fun hnil' => absurd hnil' hnil

end TotalQueue.Counts

namespace SendQueue

variable {q : SendQueue} {clock now waited : ℕ} {sending fresh : List RtpPacket}

theorem accounts_new (clock : ℕ) : ({} : SendQueue).Accounts clock 0 [] [] :=
  ⟨rfl,nofun,0,Nat.zero_le _,rfl,rfl,rfl,rfl,fun _ => rfl,nofun⟩

theorem Accounts.later (h : q.Accounts clock waited sending fresh) (hle : clock ≤ now) :
    q.Accounts now waited sending fresh :=
  ⟨h.queue,h.fresh,h.counts.imp fun _ hlast => ⟨hlast.1.trans hle,hlast.2⟩⟩

theorem Accounts.push (h : q.Accounts clock waited sending fresh) (p : RtpPacket) :
    (q.push p).Accounts clock waited sending (fresh ++ [{ p with timestamp := none }]) := by
  refine ⟨by simp only [SendQueue.push,h.queue,List.append_assoc],?_,h.counts⟩
  intro r hr
  rcases List.mem_append.mp hr with hr | hr
  · exact h.fresh r hr
  · rw [List.mem_singleton.mp hr]

/-- The loop from the back gives a time to the packets that have none and stops at the others. -/
theorem stamp_counts {total : TotalQueue} (back : List RtpPacket) {last : ℕ} (hle : last ≤ now)
    (hfresh : ∀ p ∈ fresh, p.timestamp = none)
    (hcounts : total.Counts (sending ++ back) waited last) (hpast : ∀ p ∈ sending, p.timestamp ≠ none) :
    ∃ total' at', stamp now (fresh.reverse ++ sending.reverse) total =
        .ok ((fresh.map (·.stampedAt now)).reverse ++ sending.reverse,total') ∧ at' ≤ now ∧
      total'.Counts (sending ++ (fresh.map (·.stampedAt now) ++ back)) waited at' := by
  induction fresh using List.reverseRecOn generalizing total back last with
  | nil =>
    refine ⟨total,last,?_,hle,hcounts⟩
    rcases hrev : sending.reverse with - | ⟨p,rest⟩
    · rfl
    · have hp : p ∈ sending := by rw [← List.mem_reverse,hrev]; exact .head _
      simp only [List.reverse_nil,List.nil_append,List.map_nil,stamp]
      rw [if_pos (hpast p hp)]
  | append_singleton fresh p ih =>
    have hp : p.timestamp = none := hfresh p (by simp)
    obtain ⟨total₁,hinc,hcounts₁⟩ := hcounts.increase hle p
    obtain ⟨total₂,at₂,hstamp,hat,hcounts₂⟩ :=
      ih _ le_rfl (fun r hr => hfresh r (List.mem_append_left _ hr)) hcounts₁
    refine ⟨total₂,at₂,?_,hat,?_⟩
    · rw [List.reverse_append,List.reverse_singleton,List.singleton_append,List.cons_append,stamp,
        if_neg (not_not.mpr hp),hinc,Outcome.ok_bind,hstamp]
      simp only [Outcome.ok_bind,List.map_append,List.map_cons,List.map_nil,List.reverse_append,
        List.reverse_singleton,List.nil_append,List.cons_append,RtpPacket.stampedAt]
    · simpa only [List.map_append,List.map_cons,List.map_nil,List.append_assoc,List.singleton_append]
        using hcounts₂

theorem Accounts.handleTimeout (h : q.Accounts clock waited sending fresh) (hle : clock ≤ now) :
    ∃ q', q.handleTimeout now = .ok q' ∧
      q'.Accounts now waited (sending ++ fresh.map (·.stampedAt now)) [] ∧
      q'.lastEmitted = q.lastEmitted := by
  obtain ⟨last,hlast,hcounts⟩ := h.counts
  have hpast : ∀ p ∈ sending, p.timestamp ≠ none := fun p hp hnone => by
    obtain ⟨t,-,ht⟩ := hcounts.past p hp
    exact Option.some_ne_none t (ht.symm.trans hnone)
  obtain ⟨total',at',hstamp,hat,hcounts'⟩ := stamp_counts [] (hlast.trans hle) h.fresh
    (by rwa [List.append_nil]) hpast
  refine ⟨{ q with queue := sending ++ fresh.map (·.stampedAt now),total := total' },?_,?_,rfl⟩
  · rw [SendQueue.handleTimeout,h.queue,List.reverse_append,hstamp]
    simp only [Outcome.ok_bind,List.reverse_append,List.reverse_reverse]
  · rw [List.append_nil] at hcounts'
    exact ⟨(List.append_nil _).symm,nofun,at',hat,hcounts'⟩

theorem Accounts.pop {p : RtpPacket} (p' : RtpPacket)
    (h : q.Accounts clock waited (p :: sending) fresh) (hle : clock ≤ now) (htime : p'.timestamp = some now)
    (hpayload : p'.payload = p.payload) :
    ∃ q', (q.setHead p').pop now = .ok (some p',q') ∧
      q'.Accounts now (if sending = [] then 0 else waited+p.wait now) sending fresh ∧
      q'.lastEmitted = some now := by
  obtain ⟨last,hlast,hcounts⟩ := h.counts
  obtain ⟨total',hdec,hcounts'⟩ := hcounts.decrease (hlast.trans hle)
  refine ⟨{ queue := sending ++ fresh,total := total',lastEmitted := some now },?_,
    ⟨rfl,h.fresh,now,le_rfl,hcounts'⟩,rfl⟩
  simp only [SendQueue.pop,setHead,h.queue,List.cons_append,List.tail_cons,htime,hpayload,
    Nat.sub_self,hdec,Outcome.ok_bind]

theorem Accounts.peek_some {p : RtpPacket} (h : q.Accounts clock waited (p :: sending) fresh) :
    q.peek = some p := by
  obtain ⟨last,-,hcounts⟩ := h.counts
  obtain ⟨t,-,ht⟩ := hcounts.past p (.head _)
  simp only [peek,h.queue,List.cons_append,ht,reduceCtorEq,if_false]

theorem Accounts.peek_none (h : q.Accounts clock waited [] fresh) : q.peek = none := by
  simp only [peek,h.queue,List.nil_append]
  cases fresh with
  | nil => rfl
  | cons p ps => exact if_pos (h.fresh p (.head _))

/-- What the pacer is told. -/
theorem Accounts.snapshot (h : q.Accounts clock waited sending fresh) (hle : clock ≤ now) :
    ∃ q', q.snapshot now = .ok
        (⟨now,sizes sending,sending.length,waited+waits now sending,q.lastEmitted,
          sending.head?.bind (·.timestamp),if sending = [] then .empty else .media⟩,q') ∧
      q'.Accounts now waited sending fresh ∧ q'.lastEmitted = q.lastEmitted := by
  obtain ⟨last,hlast,hcounts⟩ := h.counts
  obtain ⟨total',hmove,hcounts'⟩ := hcounts.moveTimeForward (hlast.trans hle)
  refine ⟨{ q with total := total' },?_,⟨h.queue,h.fresh,now,le_rfl,hcounts'⟩,rfl⟩
  have hfirst : (q.queue.find? fun p => p.timestamp ≠ none) = sending.head? := by
    rw [h.queue]
    cases hsend : sending with
    | nil =>
      rw [List.nil_append,List.head?_nil,List.find?_eq_none]
      intro p hp
      simp only [h.fresh p hp,ne_eq,not_true_eq_false,decide_false,Bool.false_eq_true,
        not_false_eq_true]
    | cons p ps =>
      obtain ⟨t,-,ht⟩ := hcounts.past p (hsend ▸ .head _)
      rw [List.cons_append,List.find?_cons_of_pos (by simp [ht]),List.head?_cons]
  rw [SendQueue.snapshot,hmove,Outcome.ok_bind,hcounts'.count,hcounts'.size,hcounts'.time,hfirst]
  by_cases hnil : sending = []
  · subst hnil
    rfl
  · rw [if_neg hnil,if_pos (List.length_pos_iff.mpr hnil)]

end SendQueue

end AnyKvm.Streams
