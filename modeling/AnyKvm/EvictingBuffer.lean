import AnyKvm.SendQueue

/-! The cache of sent packets that answers to NACKs.  It is a ring whose slots are given by the
position modulo its size.  It evicts by age and grows rather than lose a young entry, up to a
maximal size. -/
namespace AnyKvm.Streams

structure Entry (T : Type) where
  position : ℕ
  timestamp : ℕ
  value : T
  deriving DecidableEq, Repr

structure EvictingBuffer (T : Type) where
  buf : List (Option (Entry T))
  maxAge : ℕ
  maxSize : ℕ
  lastPosition : Option ℕ := none
  nextEvict : Option ℕ := none
  lastTimeout : ℕ := 0
  deriving DecidableEq, Repr

def slot {T : Type} (buf : List (Option (Entry T))) (i : ℕ) : Option (Entry T) := (buf[i]?).join

namespace EvictingBuffer

variable {T : Type}

def new (initialSize maxAge maxSize : ℕ) : EvictingBuffer T :=
  { buf := List.replicate initialSize none,maxAge,maxSize }

def indexForPosition (b : EvictingBuffer T) (position : ℕ) : ℕ := position % b.buf.length

def isInert (b : EvictingBuffer T) : Bool := b.buf.isEmpty || b.maxAge = 0

def rehash (newSize : ℕ) (entries : List (Entry T)) : List (Option (Entry T)) :=
  entries.foldl (fun buf e => buf.set (e.position % newSize) (some e)) (List.replicate newSize none)

def grow (b : EvictingBuffer T) : EvictingBuffer T :=
  if b.maxSize ≤ b.buf.length then b
  else
    let newSize := max (min b.maxSize (b.buf.length*133/100)) (b.buf.length+1)
    { b with buf := rehash newSize (b.buf.filterMap id) }

/-- Growing when another position has the slot: the buffer has been around. -/
def makeSpace (b : EvictingBuffer T) (position : ℕ) : EvictingBuffer T :=
  match slot b.buf (b.indexForPosition position) with
  | some entry => if entry.position ≠ position then b.grow else b
  | none => b

def push (b : EvictingBuffer T) (position timestamp : ℕ) (value : T) : EvictingBuffer T :=
  if b.isInert then b
  else if timestamp < b.lastTimeout then b
  else
    -- the first value ever cached sets the position that eviction starts from
    let nextEvict := b.nextEvict.getD position
    let b := { b with nextEvict := some nextEvict }
    if position < nextEvict then b
    else
      let b := b.makeSpace position
      { b with
        lastPosition := some position
        buf := b.buf.set (b.indexForPosition position) (some ⟨position,timestamp,value⟩) }

def get (b : EvictingBuffer T) (position : ℕ) : Option T :=
  if b.isInert then none
  else
    match slot b.buf (b.indexForPosition position) with
    | some entry => if entry.position = position then some entry.value else none
    | none => none

/-- The loop of `evict`: the buffer that it leaves, and the position that it stopped at.  The
first argument bounds the rounds; the loop ends when it has been around once. -/
def evictLoop (maxAge now start : ℕ) :
    ℕ → ℕ → List (Option (Entry T)) → List (Option (Entry T)) × ℕ
  | 0,position,buf => (buf,position)
  | rounds+1,position,buf =>
    let index := position % buf.length
    if index = start % buf.length ∧ start < position then (buf,position)
    else
      match slot buf index with
      | none => evictLoop maxAge now start rounds (position+1) buf
      | some entry =>
        if maxAge < now-entry.timestamp then
          evictLoop maxAge now start rounds (position+1) (buf.set index none)
        else (buf,position)

def evict (b : EvictingBuffer T) (now : ℕ) : EvictingBuffer T :=
  match b.nextEvict with
  | none => b
  | some start =>
    let (buf,position) := evictLoop b.maxAge now start (b.buf.length+1) start b.buf
    { b with buf,nextEvict := some position }

def maybeEvict (b : EvictingBuffer T) (now : ℕ) : EvictingBuffer T :=
  if b.isInert then b
  else if now < b.lastTimeout then b
  else evict { b with lastTimeout := now } now

def lastPosition? (b : EvictingBuffer T) : Option ℕ :=
  if b.isInert then none else b.lastPosition

def clear (b : EvictingBuffer T) : EvictingBuffer T :=
  { b with buf := List.replicate b.buf.length none,lastPosition := none,nextEvict := none,
           lastTimeout := 0 }

end EvictingBuffer

section Slots

variable {T : Type} {buf : List (Option (Entry T))}

theorem slot_set (i j : ℕ) (e : Option (Entry T)) (hi : i < buf.length) :
    slot (buf.set i e) j = if i = j then e else slot buf j := by
  rw [slot,List.getElem?_set]
  by_cases hij : i = j
  · subst hij
    rw [if_pos rfl,if_pos hi,if_pos rfl]
    rfl
  · rw [if_neg hij,if_neg hij]
    rfl

theorem slot_replicate (n i : ℕ) : slot (List.replicate n (none : Option (Entry T))) i = none := by
  rw [slot,List.getElem?_replicate]
  split <;> rfl

theorem slot_eq_some {i : ℕ} {e : Entry T} : slot buf i = some e ↔ buf[i]? = some (some e) := by
  rw [slot]
  rcases buf[i]? with - | o
  · simp
  · simp

theorem mem_filterMap_id {e : Entry T} : e ∈ buf.filterMap id ↔ ∃ i, slot buf i = some e := by
  rw [List.mem_filterMap]
  constructor
  · rintro ⟨o,ho,rfl⟩
    obtain ⟨i,hi⟩ := List.mem_iff_getElem?.mp ho
    exact ⟨i,slot_eq_some.mpr hi⟩
  · rintro ⟨i,hi⟩
    exact ⟨some e,List.mem_iff_getElem?.mpr ⟨i,slot_eq_some.mp hi⟩,rfl⟩

theorem pairwise_filterMap_id {R : Entry T → Entry T → Prop}
    (h : ∀ i j a b, i ≠ j → slot buf i = some a → slot buf j = some b → R a b) :
    (buf.filterMap id).Pairwise R := by
  rw [List.pairwise_filterMap,List.pairwise_iff_getElem]
  intro i j hi hj hij a ha b hb
  refine h i j a b hij.ne ?_ ?_
  · rw [slot_eq_some,List.getElem?_eq_getElem hi]
    exact congrArg some ha
  · rw [slot_eq_some,List.getElem?_eq_getElem hj]
    exact congrArg some hb

theorem foldl_set_length (newSize : ℕ) (entries : List (Entry T)) (buf : List (Option (Entry T))) :
    (entries.foldl (fun buf e => buf.set (e.position % newSize) (some e)) buf).length = buf.length := by
  induction entries generalizing buf with
  | nil => rfl
  | cons e es ih => rw [List.foldl_cons,ih,List.length_set]

@[simp] theorem rehash_length (newSize : ℕ) (entries : List (Entry T)) :
    (EvictingBuffer.rehash newSize entries).length = newSize := by
  rw [EvictingBuffer.rehash,foldl_set_length,List.length_replicate]

/-- Entries that go to different slots are all found in theirs, and nothing else is found. -/
theorem slot_foldl_set {newSize : ℕ} {entries : List (Entry T)} (hsize : 0 < newSize)
    (hbuf : buf.length = newSize)
    (hne : entries.Pairwise fun a b => a.position % newSize ≠ b.position % newSize) (i : ℕ)
    (e : Entry T) :
    slot (entries.foldl (fun buf e => buf.set (e.position % newSize) (some e)) buf) i = some e ↔
      (e ∈ entries ∧ e.position % newSize = i) ∨
        ((∀ e' ∈ entries, e'.position % newSize ≠ i) ∧ slot buf i = some e) := by
  induction entries generalizing buf with
  | nil => simp
  | cons a es ih =>
    obtain ⟨ha,hes⟩ := List.pairwise_cons.mp hne
    have hlt : a.position % newSize < buf.length := by rw [hbuf]; exact Nat.mod_lt _ hsize
    rw [List.foldl_cons,ih (by rwa [List.length_set]) hes,slot_set _ _ _ hlt]
    by_cases hi : a.position % newSize = i
    · subst hi
      rw [if_pos rfl]
      constructor
      · rintro (⟨hmem,heq⟩ | ⟨-,hsome⟩)
        · exact absurd heq.symm (ha e hmem)
        · cases hsome
          exact .inl ⟨.head _,rfl⟩
      · rintro (⟨hmem,heq⟩ | ⟨hall,-⟩)
        · rcases List.mem_cons.mp hmem with rfl | hmem
          · exact .inr ⟨fun e' he' => (ha e' he').symm,rfl⟩
          · exact absurd heq.symm (ha e hmem)
        · exact absurd rfl (hall a (.head _))
    · rw [if_neg hi]
      simp only [List.mem_cons,forall_eq_or_imp]
      constructor
      · rintro (⟨hmem,heq⟩ | ⟨hall,hsome⟩)
        · exact .inl ⟨.inr hmem,heq⟩
        · exact .inr ⟨⟨hi,hall⟩,hsome⟩
      · rintro (⟨rfl | hmem,heq⟩ | ⟨⟨-,hall⟩,hsome⟩)
        · exact absurd heq hi
        · exact .inl ⟨hmem,heq⟩
        · exact .inr ⟨hall,hsome⟩

theorem slot_rehash {newSize : ℕ} {entries : List (Entry T)} (hsize : 0 < newSize)
    (hne : entries.Pairwise fun a b => a.position % newSize ≠ b.position % newSize) {i : ℕ}
    {e : Entry T} :
    slot (EvictingBuffer.rehash newSize entries) i = some e ↔
      e ∈ entries ∧ e.position % newSize = i := by
  rw [EvictingBuffer.rehash,slot_foldl_set hsize List.length_replicate hne,slot_replicate]
  simp

end Slots

section Sound

variable {T : Type} {P : ℕ → T → Prop}

def EvictingBuffer.Sound (P : ℕ → T → Prop) (b : EvictingBuffer T) : Prop :=
  ∀ i e, slot b.buf i = some e → P e.position e.value

theorem slot_of_set {buf : List (Option (Entry T))} {i j : ℕ} {o : Option (Entry T)} {e : Entry T}
    (h : slot (buf.set i o) j = some e) : o = some e ∨ slot buf j = some e := by
  by_cases hi : i < buf.length
  · rw [slot_set _ _ _ hi] at h
    split at h
    · exact .inl h
    · exact .inr h
  · rw [List.set_eq_of_length_le (by omega)] at h
    exact .inr h

theorem slot_of_foldl_set {newSize i : ℕ} {entries : List (Entry T)} {buf : List (Option (Entry T))}
    {e : Entry T}
    (h : slot (entries.foldl (fun buf e => buf.set (e.position % newSize) (some e)) buf) i = some e) :
    e ∈ entries ∨ slot buf i = some e := by
  induction entries generalizing buf with
  | nil => exact .inr h
  | cons a es ih =>
    rcases ih h with hmem | hslot
    · exact .inl (.tail _ hmem)
    · rcases slot_of_set hslot with heq | hold
      · cases heq
        exact .inl (.head _)
      · exact .inr hold

theorem slot_of_evictLoop {maxAge now start rounds position i : ℕ} {buf : List (Option (Entry T))}
    {e : Entry T}
    (h : slot (EvictingBuffer.evictLoop maxAge now start rounds position buf).1 i = some e) :
    slot buf i = some e := by
  induction rounds generalizing position buf with
  | zero => exact h
  | succ rounds ih =>
    rw [EvictingBuffer.evictLoop] at h
    split at h
    · exact h
    · split at h
      · exact ih h
      · split at h
        · rcases slot_of_set (ih h) with hnone | hold
          · cases hnone
          · exact hold
        · exact h

namespace EvictingBuffer

variable {b : EvictingBuffer T}

theorem sound_new (initialSize maxAge maxSize : ℕ) :
    (new initialSize maxAge maxSize : EvictingBuffer T).Sound P := by
  intro i e h
  simp only [new,slot_replicate,reduceCtorEq] at h

theorem Sound.makeSpace (h : b.Sound P) (position : ℕ) : (b.makeSpace position).Sound P := by
  have hgrow : b.grow.Sound P := by
    rw [grow]
    split
    · exact h
    · intro i e hi
      rcases slot_of_foldl_set hi with hmem | hnone
      · obtain ⟨j,hj⟩ := mem_filterMap_id.mp hmem
        exact h j e hj
      · rw [slot_replicate] at hnone
        cases hnone
  rw [EvictingBuffer.makeSpace]
  split
  · split
    · exact hgrow
    · exact h
  · exact h

theorem Sound.push (h : b.Sound P) {position : ℕ} {value : T} (hp : P position value)
    (timestamp : ℕ) : (b.push position timestamp value).Sound P := by
  rw [EvictingBuffer.push]
  split
  · exact h
  · split
    · exact h
    · dsimp only
      split
      · exact h
      · intro i e hi
        rcases slot_of_set hi with heq | hold
        · cases heq
          exact hp
        · exact Sound.makeSpace (b := { b with nextEvict := some (b.nextEvict.getD position) }) h position
            i e hold

theorem Sound.maybeEvict (h : b.Sound P) (now : ℕ) : (b.maybeEvict now).Sound P := by
  rw [EvictingBuffer.maybeEvict]
  split
  · exact h
  · split
    · exact h
    · rw [evict]
      split
      · exact h
      · exact fun i e hi => h i e (slot_of_evictLoop hi)

theorem Sound.get (h : b.Sound P) {position : ℕ} {value : T} (hget : b.get position = some value) :
    P position value := by
  rw [EvictingBuffer.get] at hget
  split at hget
  · cases hget
  · split at hget
    case _ e he =>
      split at hget
      case _ hpos =>
        cases hget
        exact hpos ▸ h _ e he
      case _ => cases hget
    case _ => cases hget

end EvictingBuffer

end Sound

/-- The buffer against the entries that were pushed so far, at positions below `next` and until
the time `now`.  Each slot holds what was pushed at one of the last positions, and an entry that
is young is still there, unless the buffer has its maximal size and has been around since. -/
structure EvictingBuffer.Holds {T : Type} (b : EvictingBuffer T) (pushed : List (Entry T))
    (next now : ℕ) : Prop where
  nonempty : 0 < b.buf.length
  ages : 0 < b.maxAge
  unique : ∀ e ∈ pushed, ∀ e' ∈ pushed, e.position = e'.position → e = e'
  before : ∀ e ∈ pushed, e.position < next
  slots : ∀ i e, slot b.buf i = some e →
    e ∈ pushed ∧ e.position % b.buf.length = i ∧ next ≤ e.position+b.buf.length
  kept : ∀ e ∈ pushed, now-e.timestamp ≤ b.maxAge →
    next ≤ e.position+b.buf.length ∨ b.buf.length < b.maxSize →
    slot b.buf (e.position % b.buf.length) = some e
  reach : ∀ ne, b.nextEvict = some ne → ne ≤ next
  timeout : b.lastTimeout ≤ now

/-- The limits are what they were, and the size is between the old one and the maximal one. -/
structure EvictingBuffer.SameLimits {T : Type} (b' b : EvictingBuffer T) : Prop where
  maxAge : b'.maxAge = b.maxAge
  maxSize : b'.maxSize = b.maxSize
  larger : b.buf.length ≤ b'.buf.length
  bounded : b'.buf.length ≤ max b.buf.length b.maxSize

namespace EvictingBuffer

variable {T : Type} {b : EvictingBuffer T} {pushed : List (Entry T)} {next now : ℕ}

theorem Holds.not_inert (h : b.Holds pushed next now) : b.isInert = false := by
  have := h.ages
  have := h.nonempty
  simp only [isInert,Bool.or_eq_false_iff,List.isEmpty_eq_false_iff,decide_eq_false_iff_not]
  exact ⟨List.ne_nil_of_length_pos h.nonempty,by omega⟩

theorem holds_new {initialSize maxAge : ℕ} (hsize : 0 < initialSize) (hage : 0 < maxAge)
    (maxSize next now : ℕ) : (new initialSize maxAge maxSize : EvictingBuffer T).Holds [] next now := by
  refine ⟨by rwa [new,List.length_replicate],hage,nofun,nofun,?_,nofun,nofun,Nat.zero_le _⟩
  intro i e h
  simp only [new,slot_replicate,reduceCtorEq] at h

theorem position_eq_of_mod_eq {p q n : ℕ} (m : ℕ) (hp : p < m) (hq : q < m) (hpn : m ≤ p+n) (hqn : m ≤ q+n)
    (h : p % n = q % n) : p = q := by
  have hsub : (q-p) % n = 0 := Nat.sub_mod_eq_zero_of_mod_eq h.symm
  have hsub' : (p-q) % n = 0 := Nat.sub_mod_eq_zero_of_mod_eq h
  have hz := Nat.eq_zero_of_dvd_of_lt (Nat.dvd_of_mod_eq_zero hsub) (by omega)
  have hz' := Nat.eq_zero_of_dvd_of_lt (Nat.dvd_of_mod_eq_zero hsub') (by omega)
  omega

/-- The entry that lies where the next one goes is the one a whole round before. -/
theorem Holds.collides (h : b.Holds pushed next now) {e : Entry T}
    (hslot : slot b.buf (next % b.buf.length) = some e) : e.position+b.buf.length = next := by
  obtain ⟨hmem,hmod,hround⟩ := h.slots _ _ hslot
  have hlt := h.before e hmem
  by_contra hne
  have heq : e.position = next :=
    position_eq_of_mod_eq (next+1) (by omega) (by omega) (by omega) (by omega) hmod
  omega

theorem SameLimits.refl (b : EvictingBuffer T) : b.SameLimits b :=
  ⟨rfl,rfl,le_rfl,le_max_left _ _⟩

theorem SameLimits.trans {b₁ b₂ b₃ : EvictingBuffer T} (h : b₃.SameLimits b₂) (h' : b₂.SameLimits b₁) :
    b₃.SameLimits b₁ := by
  obtain ⟨hage,hmax,hle,hbound⟩ := h
  obtain ⟨hage',hmax',hle',hbound'⟩ := h'
  exact ⟨hage.trans hage',hmax.trans hmax',hle'.trans hle,by rw [hmax'] at hbound; omega⟩

theorem Holds.grow (h : b.Holds pushed next now) (hroom : b.buf.length < b.maxSize) :
    b.grow.Holds pushed next now ∧ b.grow.SameLimits b ∧ b.grow.nextEvict = b.nextEvict ∧
      slot b.grow.buf (next % b.grow.buf.length) = none := by
  set newSize := max (min b.maxSize (b.buf.length*133/100)) (b.buf.length+1) with hnew
  have hlarger : b.buf.length < newSize := by omega
  have hfits : newSize ≤ b.maxSize := by omega
  have hgrow : b.grow = { b with buf := rehash newSize (b.buf.filterMap id) } := by
    rw [EvictingBuffer.grow,if_neg (by omega)]
  have hentry : ∀ i e, slot b.buf i = some e →
      e ∈ pushed ∧ e.position % b.buf.length = i ∧ next ≤ e.position+b.buf.length ∧
        e.position < next := fun i e hi => by
    obtain ⟨hmem,hmod,hround⟩ := h.slots i e hi
    exact ⟨hmem,hmod,hround,h.before e hmem⟩
  have hslots : ∀ {i e}, slot (rehash newSize (b.buf.filterMap id)) i = some e ↔
      e ∈ b.buf.filterMap id ∧ e.position % newSize = i := fun {i e} => by
    refine slot_rehash (by omega) (pairwise_filterMap_id fun i j x y hij hx hy hmod => ?_)
    obtain ⟨-,hxi,hxr,hxl⟩ := hentry i x hx
    obtain ⟨-,hyj,hyr,hyl⟩ := hentry j y hy
    have := position_eq_of_mod_eq next hxl hyl (by omega) (by omega) hmod
    exact hij (by rw [← hxi,← hyj,this])
  rw [hgrow]
  refine ⟨⟨by rw [rehash_length]; omega,h.ages,h.unique,h.before,?_,?_,h.reach,h.timeout⟩,
    ⟨rfl,rfl,by rw [rehash_length]; exact hlarger.le,by rw [rehash_length]; omega⟩,rfl,?_⟩
  · intro i e hi
    obtain ⟨hmem,hmod⟩ := hslots.mp hi
    obtain ⟨j,hj⟩ := mem_filterMap_id.mp hmem
    obtain ⟨hpushed,-,hround,-⟩ := hentry j e hj
    rw [rehash_length]
    exact ⟨hpushed,hmod,by omega⟩
  · intro e he hyoung _
    rw [rehash_length]
    have hold := h.kept e he hyoung (.inr hroom)
    exact hslots.mpr ⟨mem_filterMap_id.mpr ⟨_,hold⟩,rfl⟩
  · rw [rehash_length]
    rcases hs : slot (rehash newSize (b.buf.filterMap id)) (next % newSize) with - | e
    · rfl
    · obtain ⟨hmem,hmod⟩ := hslots.mp hs
      obtain ⟨j,hj⟩ := mem_filterMap_id.mp hmem
      obtain ⟨-,-,hround,hlt⟩ := hentry j e hj
      have heq : e.position = next :=
        position_eq_of_mod_eq (next+1) (by omega) (by omega) (by omega) (by omega) hmod
      omega

theorem Holds.makeSpace (h : b.Holds pushed next now) :
    (b.makeSpace next).Holds pushed next now ∧ (b.makeSpace next).SameLimits b ∧
      (b.makeSpace next).nextEvict = b.nextEvict ∧
      ∀ e, slot (b.makeSpace next).buf (next % (b.makeSpace next).buf.length) = some e →
        (b.makeSpace next).maxSize ≤ (b.makeSpace next).buf.length := by
  rcases hslot : slot b.buf (next % b.buf.length) with - | e
  · have hsame : b.makeSpace next = b := by rw [EvictingBuffer.makeSpace,indexForPosition,hslot]
    rw [hsame,hslot]
    exact ⟨h,.refl b,rfl,nofun⟩
  · have hbefore : e.position ≠ next := by
      have := h.collides hslot
      have := h.nonempty
      omega
    have hgrow : b.makeSpace next = b.grow := by
      rw [EvictingBuffer.makeSpace,indexForPosition,hslot]
      exact if_pos hbefore
    rw [hgrow]
    by_cases hroom : b.buf.length < b.maxSize
    · obtain ⟨hholds,hlimits,hevict,hfree⟩ := h.grow hroom
      exact ⟨hholds,hlimits,hevict,fun e he => absurd (hfree.symm.trans he) nofun⟩
    · have hsame : b.grow = b := if_pos (by omega)
      rw [hsame]
      exact ⟨h,.refl b,rfl,fun _ _ => by omega⟩

theorem Holds.insert {t : ℕ} (h : b.Holds pushed next now) (hle : now ≤ t) (value : T)
    (hfree : ∀ e, slot b.buf (next % b.buf.length) = some e → b.maxSize ≤ b.buf.length) :
    ({ b with
        lastPosition := some next
        buf := b.buf.set (next % b.buf.length) (some ⟨next,t,value⟩) } :
      EvictingBuffer T).Holds (pushed ++ [⟨next,t,value⟩]) (next+1) t := by
  have hlt : next % b.buf.length < b.buf.length := Nat.mod_lt _ h.nonempty
  refine ⟨by rw [List.length_set]; exact h.nonempty,h.ages,?_,?_,?_,?_,?_,h.timeout.trans hle⟩
  · intro e he e' he' heq
    rcases List.mem_append.mp he with he | he <;> rcases List.mem_append.mp he' with he' | he'
    · exact h.unique e he e' he' heq
    · rw [List.mem_singleton.mp he'] at heq
      exact absurd heq (h.before e he).ne
    · rw [List.mem_singleton.mp he] at heq
      exact absurd heq.symm (h.before e' he').ne
    · rw [List.mem_singleton.mp he,List.mem_singleton.mp he']
  · intro e he
    rcases List.mem_append.mp he with he | he
    · exact (h.before e he).trans (Nat.lt_succ_self _)
    · rw [List.mem_singleton.mp he]
      exact Nat.lt_succ_self _
  · intro i e hi
    rw [List.length_set]
    rw [slot_set _ _ _ hlt] at hi
    by_cases hi' : next % b.buf.length = i
    · rw [if_pos hi'] at hi
      cases hi
      exact ⟨by simp,hi',by have := h.nonempty; dsimp only; omega⟩
    · rw [if_neg hi'] at hi
      obtain ⟨hmem,hmod,hround⟩ := h.slots i e hi
      refine ⟨List.mem_append_left _ hmem,hmod,?_⟩
      rcases hround.lt_or_eq with hround | hround
      · exact hround
      · exact absurd (by rw [hround,Nat.add_mod_right,hmod]) hi'
  · intro e he hyoung hwhere
    rw [List.length_set] at hwhere ⊢
    rw [slot_set _ _ _ hlt]
    rcases List.mem_append.mp he with he | he
    · have hold := h.kept e he ((Nat.sub_le_sub_right hle _).trans hyoung) (hwhere.imp_left fun hround => by omega)
      by_cases hi : next % b.buf.length = e.position % b.buf.length
      · have hmax := hfree e (hi ▸ hold)
        have := h.collides (hi ▸ hold)
        rcases hwhere with hwhere | (hwhere : b.buf.length < b.maxSize) <;> omega
      · rw [if_neg hi]
        exact hold
    · rw [List.mem_singleton.mp he,if_pos rfl]
  · intro ne hne
    exact (h.reach ne hne).trans (Nat.le_succ _)

theorem Holds.push {t : ℕ} (h : b.Holds pushed next now) (hle : now ≤ t) (value : T) :
    (b.push next t value).Holds (pushed ++ [⟨next,t,value⟩]) (next+1) t ∧
      (∃ ne ≤ next, (b.push next t value).nextEvict = some ne) ∧
      (b.push next t value).SameLimits b ∧ (b.push next t value).lastPosition = some next := by
  have hstart : b.nextEvict.getD next ≤ next := by
    rcases hev : b.nextEvict with - | ne
    · exact le_rfl
    · exact h.reach ne hev
  set b₁ := { b with nextEvict := some (b.nextEvict.getD next) } with hb₁
  have h₁ : b₁.Holds pushed next now :=
    ⟨h.nonempty,h.ages,h.unique,h.before,h.slots,h.kept,
      fun ne hne => (Option.some.inj hne) ▸ hstart,h.timeout⟩
  have hpush : b.push next t value =
      { b₁.makeSpace next with
        lastPosition := some next
        buf := (b₁.makeSpace next).buf.set ((b₁.makeSpace next).indexForPosition next)
          (some ⟨next,t,value⟩) } := by
    have := h.timeout
    rw [EvictingBuffer.push,h.not_inert,if_neg Bool.false_ne_true,if_neg (by omega)]
    dsimp only
    rw [if_neg (by omega)]
  obtain ⟨h₂,hlimits,hevict,hfree⟩ := h₁.makeSpace
  rw [hpush]
  refine ⟨h₂.insert hle value hfree,⟨_,hstart,hevict⟩,?_,rfl⟩
  exact ⟨hlimits.maxAge,hlimits.maxSize,hlimits.larger.trans_eq (List.length_set).symm,
    (List.length_set).trans_le hlimits.bounded⟩

/-- Some slots were emptied, each of an entry that is too old. -/
def Thinned (maxAge now : ℕ) (buf' buf : List (Option (Entry T))) : Prop :=
  ∀ i, slot buf' i = slot buf i ∨
    slot buf' i = none ∧ ∃ e, slot buf i = some e ∧ maxAge < now-e.timestamp

theorem Thinned.trans {maxAge : ℕ} {buf₁ buf₂ buf₃ : List (Option (Entry T))}
    (h : Thinned maxAge now buf₃ buf₂) (h' : Thinned maxAge now buf₂ buf₁) :
    Thinned maxAge now buf₃ buf₁ := by
  intro i
  rcases h' i with heq' | hgone
  · rw [← heq']
    exact h i
  · rcases h i with heq | ⟨-,e,he,-⟩
    · exact .inr ⟨heq.trans hgone.1,hgone.2⟩
    · exact absurd (hgone.1.symm.trans he) nofun

theorem evictLoop_spec (maxAge start rounds : ℕ) {stop position : ℕ} {buf : List (Option (Entry T))}
    {fresh : Entry T} (hbuf : 0 < buf.length) (hle : position ≤ stop)
    (hfresh : slot buf (stop % buf.length) = some fresh) (hage : now-fresh.timestamp ≤ maxAge) :
    (evictLoop maxAge now start rounds position buf).1.length = buf.length ∧
      (evictLoop maxAge now start rounds position buf).2 ≤ stop ∧
      Thinned maxAge now (evictLoop maxAge now start rounds position buf).1 buf := by
  induction rounds generalizing position buf with
  | zero => exact ⟨rfl,hle,fun i => .inl rfl⟩
  | succ rounds ih =>
    rw [evictLoop]
    split
    · exact ⟨rfl,hle,fun i => .inl rfl⟩
    · split
      case _ hnone =>
        have hne : position ≠ stop := fun heq => by
          rw [heq,hfresh] at hnone
          cases hnone
        exact ih hbuf (by omega) hfresh
      case _ e he =>
        by_cases hold : maxAge < now-e.timestamp
        · rw [if_pos hold]
          have hlt : position % buf.length < buf.length := Nat.mod_lt _ hbuf
          have hother : position % buf.length ≠ stop % buf.length := fun heq => by
            rw [heq,hfresh] at he
            cases he
            omega
          have hne : position ≠ stop := fun heq => hother (by rw [heq])
          have hset : Thinned maxAge now (buf.set (position % buf.length) none) buf := fun i => by
            rw [slot_set _ _ _ hlt]
            by_cases hi : position % buf.length = i
            · rw [if_pos hi]
              exact .inr ⟨rfl,e,hi ▸ he,hold⟩
            · rw [if_neg hi]
              exact .inl rfl
          obtain ⟨hlen,hstop,hthin⟩ := @ih (position+1) (buf.set (position % buf.length) none)
            (by rwa [List.length_set]) (by omega)
            (by rw [List.length_set,slot_set _ _ _ hlt,if_neg hother,hfresh])
          exact ⟨by rw [hlen,List.length_set],hstop,hthin.trans hset⟩
        · rw [if_neg hold]
          exact ⟨rfl,hle,fun i => .inl rfl⟩

/-- The bound on the rounds is not what ends the loop. -/
theorem evictLoop_rounds {maxAge start rounds position : ℕ} {buf : List (Option (Entry T))}
    (hbuf : 0 < buf.length) (hle : start ≤ position) (hpos : position ≤ start+buf.length)
    (hrounds : start+buf.length < position+rounds) (more : ℕ) :
    evictLoop maxAge now start (rounds+more) position buf =
      evictLoop maxAge now start rounds position buf := by
  induction rounds generalizing position buf with
  | zero => omega
  | succ rounds ih =>
    rw [show rounds+1+more = (rounds+more)+1 by omega,evictLoop,evictLoop]
    by_cases hround : position % buf.length = start % buf.length ∧ start < position
    · rw [if_pos hround,if_pos hround]
    · rw [if_neg hround,if_neg hround]
      have hlt : position < start+buf.length := by
        refine lt_of_le_of_ne hpos fun heq => hround ⟨?_,by omega⟩
        rw [heq,Nat.add_mod_right]
      rcases slot buf (position % buf.length) with - | e
      · exact ih hbuf (by omega) (by omega) (by omega)
      · dsimp only
        split
        · exact ih (by rwa [List.length_set]) (by omega) (by rw [List.length_set]; omega)
            (by rw [List.length_set]; omega)
        · rfl

/-- Some position from `start` on, less than a round away, has the slot of `last`. -/
theorem exists_stop {start last n : ℕ} (hn : 0 < n) (hle : start ≤ last) :
    ∃ stop, start ≤ stop ∧ stop ≤ last ∧ stop % n = last % n ∧ stop < start+n := by
  refine ⟨start+(last-start) % n,by omega,?_,?_,?_⟩
  · have := Nat.mod_le (last-start) n
    omega
  · rw [Nat.add_mod,Nat.mod_mod,← Nat.add_mod,Nat.add_sub_of_le hle]
  · have := Nat.mod_lt (last-start) hn
    omega

theorem Holds.maybeEvict (h : b.Holds pushed (next+1) now) {ne : ℕ} (hne : ne ≤ next)
    (hstart : b.nextEvict = some ne) {e : Entry T} (he : e ∈ pushed) (hpos : e.position = next)
    (htime : e.timestamp = now) :
    (b.maybeEvict now).Holds pushed (next+1) now ∧ (b.maybeEvict now).SameLimits b ∧
      (b.maybeEvict now).lastPosition = b.lastPosition := by
  obtain ⟨stop,hge,hle,hmod,hround⟩ := exists_stop h.nonempty hne
  have hfresh : slot b.buf (stop % b.buf.length) = some e := by
    have := h.nonempty
    rw [hmod,← hpos]
    exact h.kept e he (by omega) (.inl (by omega))
  obtain ⟨hlen,hstop,hthin⟩ := evictLoop_spec b.maxAge ne (b.buf.length+1) h.nonempty hge hfresh
    (show now-e.timestamp ≤ b.maxAge by omega)
  set after := evictLoop b.maxAge now ne (b.buf.length+1) ne b.buf with hafter
  have hevict : b.maybeEvict now =
      { b with buf := after.1,nextEvict := some after.2,lastTimeout := now } := by
    have := h.timeout
    rw [EvictingBuffer.maybeEvict,h.not_inert,if_neg Bool.false_ne_true,if_neg (by omega),evict]
    simp only [hstart]
    rfl
  rw [hevict]
  refine ⟨⟨by rw [hlen]; exact h.nonempty,h.ages,h.unique,h.before,?_,?_,?_,le_rfl⟩,
    ⟨rfl,rfl,hlen.symm.le,by rw [hlen]; omega⟩,rfl⟩
  · intro i x hx
    rw [hlen]
    rcases hthin i with heq | ⟨hnone,-⟩
    · exact h.slots i x (heq ▸ hx)
    · exact absurd (hnone.symm.trans hx) nofun
  · intro x hx hyoung hwhere
    rw [hlen] at hwhere ⊢
    have hold := h.kept x hx hyoung hwhere
    rcases hthin (x.position % b.buf.length) with heq | ⟨-,y,hy,haged⟩
    · rw [heq]
      exact hold
    · cases hold.symm.trans hy
      exact absurd haged (not_lt.mpr hyoung)
  · intro ne' hne'
    cases hne'
    omega

theorem Holds.get_pushed (h : b.Holds pushed next now) {position : ℕ} {value : T}
    (hget : b.get position = some value) :
    ∃ e ∈ pushed, e.position = position ∧ e.value = value := by
  rw [get,h.not_inert,if_neg Bool.false_ne_true,indexForPosition] at hget
  rcases hslot : slot b.buf (position % b.buf.length) with - | e
  · rw [hslot] at hget
    cases hget
  · rw [hslot] at hget
    dsimp only at hget
    by_cases hpos : e.position = position
    · rw [if_pos hpos] at hget
      exact ⟨e,(h.slots _ _ hslot).1,hpos,Option.some.inj hget⟩
    · rw [if_neg hpos] at hget
      cases hget

/-- What is young and was pushed within the last `bound` positions is found, where `bound` is the
larger of the maximal size and any size that the buffer has had. -/
theorem Holds.get_young (h : b.Holds pushed next now) {bound : ℕ} (hbound : bound ≤ max b.buf.length b.maxSize)
    {e : Entry T} (he : e ∈ pushed) (hyoung : now-e.timestamp ≤ b.maxAge)
    (hrecent : next ≤ e.position+bound) : b.get e.position = some e.value := by
  have hslot := h.kept e he hyoung (by omega)
  rw [get,h.not_inert,if_neg Bool.false_ne_true,indexForPosition,hslot]
  exact if_pos rfl

end EvictingBuffer

def rtxCacheSizeQuantizer : ℕ := 25

def datagramMaxPacketSize : ℕ := 2000

def rtxCacheQuantizeSlots : ℕ := datagramMaxPacketSize/rtxCacheSizeQuantizer

structure RtxCache where
  packetBySeqNo : EvictingBuffer RtpPacket
  deriving DecidableEq, Repr

namespace RtxCache

def new (maxPacketCount maxPacketAge : ℕ) : RtxCache := ⟨.new 10 maxPacketAge maxPacketCount⟩

/-- The assertion, and the index into the table of the packets by their size, may panic. -/
def cacheSentPacket (c : RtxCache) (packet : RtpPacket) (now : ℕ) : Panicking RtxCache :=
  if packet.nackable ∧ packet.payload.length/rtxCacheSizeQuantizer < rtxCacheQuantizeSlots then
    .ok ⟨(c.packetBySeqNo.push packet.seqNo now packet).maybeEvict now⟩
  else .panicked

def lastCachedSeqNo (c : RtxCache) : Option ℕ := c.packetBySeqNo.lastPosition?

def getCachedPacketBySeqNo (c : RtxCache) (seqNo : ℕ) : Option RtpPacket := c.packetBySeqNo.get seqNo

def clear (c : RtxCache) : RtxCache := ⟨c.packetBySeqNo.clear⟩

/-- The packets sent one after the other, each with the time at which it was. -/
def cacheSentPackets : RtxCache → List (RtpPacket × ℕ) → Panicking RtxCache
  | c,[] => .ok c
  | c,(packet,now) :: rest => do
    let c ← c.cacheSentPacket packet now
    cacheSentPackets c rest

end RtxCache

def entryOf (sent : RtpPacket × ℕ) : Entry RtpPacket := ⟨sent.1.seqNo,sent.2,sent.1⟩

/-- Packets as a stream sends them: their numbers go up by one, time does not go back, and each
may be cached. -/
def SentInOrder : ℕ → ℕ → List (RtpPacket × ℕ) → Prop
  | _,_,[] => True
  | next,now,(packet,t) :: rest =>
    packet.seqNo = next ∧ now ≤ t ∧ packet.nackable = true ∧
      packet.payload.length < datagramMaxPacketSize ∧ SentInOrder (next+1) t rest

namespace RtxCache

variable {c : RtxCache} {sent : List (RtpPacket × ℕ)} {next now : ℕ}

theorem cacheSentPacket_holds (h : c.packetBySeqNo.Holds (sent.map entryOf) next now)
    {packet : RtpPacket} {t : ℕ} (hseq : packet.seqNo = next) (hle : now ≤ t)
    (hnack : packet.nackable = true) (hlen : packet.payload.length < datagramMaxPacketSize) :
    ∃ c', c.cacheSentPacket packet t = .ok c' ∧
      c'.packetBySeqNo.Holds ((sent ++ [(packet,t)]).map entryOf) (next+1) t ∧
      c'.packetBySeqNo.SameLimits c.packetBySeqNo ∧ c'.lastCachedSeqNo = some next := by
  have hslot : packet.payload.length/rtxCacheSizeQuantizer < rtxCacheQuantizeSlots :=
    Nat.div_lt_of_lt_mul hlen
  obtain ⟨hpush,⟨ne,hne,hstart⟩,hlimits,hlast⟩ := h.push hle packet
  obtain ⟨hevict,hlimits',hlast'⟩ := hpush.maybeEvict hne hstart
    (e := ⟨next,t,packet⟩) (by simp) rfl rfl
  refine ⟨_,if_pos ⟨hnack,hslot⟩,?_,?_,?_⟩
  · rw [hseq,List.map_append]
    simpa only [entryOf,List.map_cons,List.map_nil,hseq] using hevict
  · rw [hseq]
    exact hlimits'.trans hlimits
  · rw [lastCachedSeqNo,EvictingBuffer.lastPosition?,hseq,hevict.not_inert,
      if_neg Bool.false_ne_true,hlast',hlast]

theorem cacheSentPackets_holds {rest : List (RtpPacket × ℕ)}
    (h : c.packetBySeqNo.Holds (sent.map entryOf) next now) (hrest : SentInOrder next now rest) :
    ∃ c', c.cacheSentPackets rest = .ok c' ∧
      c'.packetBySeqNo.Holds ((sent ++ rest).map entryOf) (next+rest.length)
        ((rest.map (·.2)).getLast?.getD now) ∧
      c'.packetBySeqNo.SameLimits c.packetBySeqNo := by
  induction rest generalizing c sent next now with
  | nil => exact ⟨c,rfl,by rwa [List.append_nil],.refl _⟩
  | cons a rest ih =>
    obtain ⟨packet,t⟩ := a
    obtain ⟨hseq,hle,hnack,hlen,htail⟩ := hrest
    obtain ⟨c₁,hcache,hholds,hlimits,-⟩ := cacheSentPacket_holds h hseq hle hnack hlen
    obtain ⟨c₂,hcaches,hholds',hlimits'⟩ := ih hholds htail
    refine ⟨c₂,by rw [cacheSentPackets,hcache,Outcome.ok_bind,hcaches],?_,hlimits'.trans hlimits⟩
    rw [List.append_assoc,List.singleton_append] at hholds'
    rw [List.length_cons,List.map_cons,List.getLast?_cons,Option.getD_some,
      show next+(rest.length+1) = next+1+rest.length by omega]
    exact hholds'

/-- Whatever a stream has sent, and however the cache had to grow and to evict for it: it finds
under a number nothing but the packet of that number, it finds each packet that is young and
among the last `max 10 maxPacketCount`, and it never has more slots than that. -/
theorem retained {maxPacketCount maxPacketAge first start : ℕ} (hage : 0 < maxPacketAge)
    {sent : List (RtpPacket × ℕ)} (hsent : SentInOrder first start sent) :
    ∃ c, (new maxPacketCount maxPacketAge).cacheSentPackets sent = .ok c ∧
      c.packetBySeqNo.buf.length ≤ max 10 maxPacketCount ∧
      (∀ seqNo packet, c.getCachedPacketBySeqNo seqNo = some packet →
        packet.seqNo = seqNo ∧ packet ∈ sent.map (·.1)) ∧
      ∀ packet t, (packet,t) ∈ sent → (sent.map (·.2)).getLast?.getD start-t ≤ maxPacketAge →
        first+sent.length ≤ packet.seqNo+max 10 maxPacketCount →
        c.getCachedPacketBySeqNo packet.seqNo = some packet := by
  have hnew : (new maxPacketCount maxPacketAge).packetBySeqNo.Holds (([] : List _).map entryOf) first start :=
    EvictingBuffer.holds_new (by omega) hage _ _ _
  obtain ⟨c,hcache,hholds,hlimits⟩ := cacheSentPackets_holds hnew hsent
  rw [List.nil_append] at hholds
  have hten : (new maxPacketCount maxPacketAge).packetBySeqNo.buf.length = 10 := List.length_replicate
  have hmax : c.packetBySeqNo.maxSize = maxPacketCount := hlimits.maxSize
  refine ⟨c,hcache,?_,?_,?_⟩
  · rw [← hten]
    exact hlimits.bounded
  · intro seqNo packet hget
    obtain ⟨e,he,hpos,hval⟩ := hholds.get_pushed hget
    obtain ⟨x,hx,rfl⟩ := List.mem_map.mp he
    exact ⟨hval ▸ hpos,List.mem_map.mpr ⟨x,hx,hval⟩⟩
  · intro packet t hmem hyoung hrecent
    have hbound : max 10 maxPacketCount ≤ max c.packetBySeqNo.buf.length c.packetBySeqNo.maxSize := by
      have := hlimits.larger
      omega
    exact hholds.get_young hbound (e := ⟨packet.seqNo,t,packet⟩)
      (List.mem_map.mpr ⟨(packet,t),hmem,rfl⟩) (by rw [hlimits.maxAge]; exact hyoung) hrecent

/-- A cache for two packets keeps ten, and the second of three while it is young. -/
theorem retained_three : ∃ c, (new 2 5).cacheSentPackets
      (([0,1,2] : List ℕ).map fun i => (⟨i,⟨true,96,i,90,5⟩,[1],none,true⟩,4*i)) = .ok c ∧
    c.packetBySeqNo.buf.length ≤ 10 ∧
    c.getCachedPacketBySeqNo 1 = some ⟨1,⟨true,96,1,90,5⟩,[1],none,true⟩ := by
  have hsent : SentInOrder 0 0
      (([0,1,2] : List ℕ).map fun i => (⟨i,⟨true,96,i,90,5⟩,[1],none,true⟩,4*i)) := by
    simp [SentInOrder,datagramMaxPacketSize]
  obtain ⟨c,hcache,hsize,-,hfound⟩ := retained (show 0 < 5 by decide) hsent
  exact ⟨c,hcache,hsize,hfound _ 4 (List.mem_map.mpr ⟨1,by decide,rfl⟩) (by decide) (by decide)⟩

end RtxCache

end AnyKvm.Streams
