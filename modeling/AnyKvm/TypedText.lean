import AnyKvm.BootKeyboard
import AnyKvm.EventLoop
import AnyKvm.QuickActions
import AnyKvm.Transition

/-! `app.js`: `typeText` with its two timers, from the text to the characters that the target reads. -/
namespace AnyKvm
namespace TypedText
open Browser (Hold charMap shiftMap lookupUnit typed released reportOf)
open EventLoop Hid Transition

/-- The callbacks of the two timers. -/
inductive Call
  | interval
  | release
  deriving DecidableEq

/-- `i` is how far the text has been typed, and `frames` is what went out over the data channel. -/
structure State where
  text : List UInt16
  i : ℕ := 0
  channelOpen : Bool := true
  timers : Timers Call := {}
  frames : List Frame := []
  deriving DecidableEq

inductive Action
  | elapse (time : ℕ)
  | fire (n : ℕ)
  deriving DecidableEq

namespace State
variable (s : State)

def sendHid (frame : Frame) : State := if s.channelOpen = true then { s with frames := s.frames ++ [frame] } else s

def setTimeout (timeout : ℕ) (call : Call) : State := { s with timers := s.timers.start timeout call }

/-- The key of a character, and the timer that releases it. -/
def press (unit : UInt16) : State :=
  match typed unit with
  | some hold => (s.sendHid [0x01,hold.modifiers,hold.key,0,0,0,0,0]).setTimeout 30 .release
  | none => s

/-- One call of the interval; unless it is cleared it is set up again after the call. -/
def interval : State :=
  match s.text[s.i]? with
  | some unit =>
    if s.channelOpen = false then s.sendHid released
    else ({ s.press unit with i := s.i + 1 } : State).setTimeout 60 .interval
  | none => s.sendHid released

def call : Call → State
  | .interval => s.interval
  | .release => s.sendHid released

end State

def typeText (text : List UInt16) (channelOpen : Bool) : State :=
  let s : State := { text := text, channelOpen := channelOpen }
  if text = [] ∨ channelOpen = false then s else s.setTimeout 60 .interval

def step (s : State) : Action → Option State
  | .elapse time => some { s with timers := s.timers.elapse time }
  | .fire n => (s.timers.fire n).map fun (call,timers) => ({ s with timers := timers } : State).call call

/-- The reports that the agent writes to the keyboard. -/
def reports (frames : List Frame) : List (List UInt8) :=
  frames.filterMap fun frame => reportOf .keyboard (({ kbd := true, mouse := true } : Gadget).onFrame frame).2

/-- The code unit occurs in one of the two tables. -/
def typable (unit : UInt16) : Bool := (charMap ++ shiftMap).any fun entry => entry.1.toNat = unit.toNat

/-- The target has read the text, and nothing is down. -/
structure Typed (text : List UInt16) (frames : List Frame) : Prop where
  characters : (BootKeyboard.characters BootKeyboard.noKeys (reports frames)).map (fun c => UInt16.ofNat c.toNat) =
    text.filter typable
  last : text ≠ [] → (reports frames).getLast? = some BootKeyboard.idle

def stroke (hold : Hold) : List Frame := [[0x01,hold.modifiers,hold.key,0,0,0,0,0],released]

def strokes (text : List UInt16) : List Frame := text.flatMap fun unit => ((typed unit).map stroke).getD []

theorem reports_stroke (hold : Hold) (frames : List Frame) :
    reports (stroke hold ++ frames) =
      BootKeyboard.single hold.modifiers hold.key :: BootKeyboard.idle :: reports frames := rfl

/-- The tables agree with the layout. -/
theorem charMap_layout : ∀ entry ∈ charMap, BootKeyboard.character 0 entry.2 = some entry.1 ∧ entry.2 ≠ 0 := by
  decide +kernel

theorem shiftMap_layout : ∀ entry ∈ shiftMap, BootKeyboard.character 0x02 entry.2 = some entry.1 ∧ entry.2 ≠ 0 := by
  decide +kernel

theorem lookupUnit_eq_some {table : List (Char × UInt8)} {unit : UInt16} {key : UInt8}
    (h : lookupUnit table unit = some key) : ∃ c, (c,key) ∈ table ∧ c.toNat = unit.toNat := by
  obtain ⟨entry,hentry,rfl⟩ := Option.map_eq_some_iff.mp h
  have hunit := List.find?_some hentry
  exact ⟨entry.1,List.mem_of_find?_eq_some hentry,of_decide_eq_true hunit⟩

theorem typed_character {unit : UInt16} {hold : Hold} (h : typed unit = some hold) :
    hold.key ≠ 0 ∧ ∃ c, BootKeyboard.character hold.modifiers hold.key = some c ∧ c.toNat = unit.toNat := by
  unfold typed at h
  cases hchar : lookupUnit charMap unit with
  | some key =>
    rw [hchar] at h
    cases h
    obtain ⟨c,hmem,hc⟩ := lookupUnit_eq_some hchar
    obtain ⟨hlayout,hkey⟩ := charMap_layout _ hmem
    exact ⟨hkey,c,hlayout,hc⟩
  | none =>
    rw [hchar] at h
    obtain ⟨key,hkey,rfl⟩ := Option.map_eq_some_iff.mp h
    obtain ⟨c,hmem,hc⟩ := lookupUnit_eq_some hkey
    obtain ⟨hlayout,hne⟩ := shiftMap_layout _ hmem
    exact ⟨hne,c,hlayout,hc⟩

theorem lookupUnit_isSome (table : List (Char × UInt8)) (unit : UInt16) :
    (lookupUnit table unit).isSome = table.any fun entry => entry.1.toNat = unit.toNat := by
  rw [lookupUnit,Option.isSome_map,List.isSome_find?]

theorem typed_isSome (unit : UInt16) : (typed unit).isSome = typable unit := by
  rw [typable,List.any_append,← lookupUnit_isSome,← lookupUnit_isSome]
  unfold typed
  cases lookupUnit charMap unit with
  | some key => rfl
  | none => exact Option.isSome_map

theorem strokes_cons (unit : UInt16) (text : List UInt16) :
    strokes (unit :: text) = ((typed unit).map stroke).getD [] ++ strokes text := List.flatMap_cons

theorem characters_strokes (text : List UInt16) (frames : List Frame) :
    (BootKeyboard.characters BootKeyboard.noKeys (reports (strokes text ++ frames))).map
        (fun c => UInt16.ofNat c.toNat) =
      text.filter typable ++
        (BootKeyboard.characters BootKeyboard.noKeys (reports frames)).map fun c => UInt16.ofNat c.toNat := by
  induction text with
  | nil => rfl
  | cons unit text ih =>
    rw [strokes_cons,List.append_assoc]
    cases htyped : typed unit with
    | none =>
      have hleft : typable unit = false := by rw [← typed_isSome,htyped,Option.isSome_none]
      rw [List.filter_cons_of_neg (by simp [hleft]),← ih]
      rfl
    | some hold =>
      have hright : typable unit = true := by rw [← typed_isSome,htyped,Option.isSome_some]
      obtain ⟨hkey,c,hc,hunit⟩ := typed_character htyped
      rw [Option.map_some,Option.getD_some,reports_stroke,BootKeyboard.characters_stroke hkey,hc,Option.toList_some,
        List.singleton_append,List.map_cons,ih,hunit,UInt16.ofNat_toNat,List.filter_cons_of_pos hright,List.cons_append]

theorem typed_strokes (text : List UInt16) : Typed text (strokes text ++ [released]) := by
  refine ⟨?_,fun _ => ?_⟩
  · rw [characters_strokes]
    exact List.append_nil _
  · have hlast : reports (strokes text ++ [released]) = reports (strokes text) ++ [BootKeyboard.idle] :=
      List.filterMap_append
    rw [hlast,List.getLast?_concat]

/-- Between two calls the text is waiting for its interval, holding a key down, over, or it was empty. -/
inductive Phase (text : List UInt16) (s : State) : Prop
  | waiting (due : ℕ) (pending : s.timers.pending = [⟨60,due,.interval⟩])
      (frames : s.frames = strokes (text.take s.i))
  | holding (due next : ℕ) (pending : s.timers.pending = [⟨30,due,.release⟩,⟨60,next,.interval⟩])
      (frames : s.frames ++ [released] = strokes (text.take s.i))
  | finished (pending : s.timers.pending = []) (frames : s.frames = strokes text ++ [released])
  | empty (text : text = []) (pending : s.timers.pending = []) (frames : s.frames = [])

structure Sound (text : List UInt16) (s : State) : Prop where
  same : s.text = text
  channelOpen : s.channelOpen = true
  phase : Phase text s

/-- The calls that are left, at most. -/
def remaining (s : State) : ℕ := 2 * (s.text.length - s.i) + s.timers.pending.length

variable {text : List UInt16} {s s' : State}

theorem typeText_sound (text : List UInt16) : Sound text (typeText text true) := by
  unfold typeText
  by_cases htext : text = []
  · rw [if_pos (.inl htext)]
    exact ⟨rfl,rfl,.empty htext rfl rfl⟩
  · rw [if_neg (by simp [htext])]
    exact ⟨rfl,rfl,.waiting _ rfl rfl⟩

theorem sendHid_open (h : s.channelOpen = true) (frame : Frame) :
    s.sendHid frame = { s with frames := s.frames ++ [frame] } := if_pos h

theorem elapse_sound (h : Sound text s) (time : ℕ) : Sound text { s with timers := s.timers.elapse time } := by
  refine ⟨h.same,h.channelOpen,?_⟩
  cases h.phase with
  | waiting due pending frames => exact .waiting due pending frames
  | holding due next pending frames => exact .holding due next pending frames
  | finished pending frames => exact .finished pending frames
  | empty htext pending frames => exact .empty htext pending frames

theorem strokes_take_succ {i : ℕ} {unit : UInt16} (h : text[i]? = some unit) :
    strokes (text.take (i + 1)) = strokes (text.take i) ++ ((typed unit).map stroke).getD [] := by
  rw [List.take_add_one,h,Option.toList_some,strokes,List.flatMap_append,List.flatMap_singleton]
  rfl

theorem interval_sound (htext : s.text = text) (hopen : s.channelOpen = true) (hpending : s.timers.pending = [])
    (hframes : s.frames = strokes (text.take s.i)) :
    Sound text s.interval ∧ remaining s.interval ≤ remaining s := by
  cases hunit : s.text[s.i]? with
  | none =>
    have hall : text.take s.i = text := by
      rw [← htext]
      exact List.take_of_length_le (List.getElem?_eq_none_iff.mp hunit)
    have hend : s.interval = { s with frames := s.frames ++ [released] } := by
      simp only [State.interval,hunit,sendHid_open hopen]
    rw [hend]
    refine ⟨⟨htext,hopen,.finished hpending ?_⟩,le_refl _⟩
    rw [hframes,hall]
  | some unit =>
    have hlt : s.i < s.text.length := (List.getElem?_eq_some_iff.mp hunit).1
    have hnext := strokes_take_succ (htext ▸ hunit)
    cases htyped : typed unit with
    | none =>
      have hskip : s.interval = ({ s with i := s.i + 1 } : State).setTimeout 60 .interval := by
        simp only [State.interval,hunit,hopen,Bool.true_eq_false,if_false,State.press,htyped]
      rw [hskip]
      refine ⟨⟨htext,hopen,.waiting (s.timers.now + 60) ?_ ?_⟩,?_⟩
      · simp only [State.setTimeout,EventLoop.Timers.start,hpending,List.nil_append]
      · change s.frames = strokes (text.take (s.i + 1))
        rw [hnext,htyped,hframes]
        exact (List.append_nil _).symm
      · simp only [remaining,State.setTimeout,EventLoop.Timers.start,hpending,List.nil_append,List.length_singleton,
          List.length_nil]
        omega
    | some hold =>
      have hpress : s.interval = ({ s with
          i := s.i + 1, frames := s.frames ++ [[0x01,hold.modifiers,hold.key,0,0,0,0,0]],
          timers := s.timers.start 30 .release } : State).setTimeout 60 .interval := by
        simp only [State.interval,hunit,hopen,Bool.true_eq_false,if_false,State.press,htyped,sendHid_open hopen,
          State.setTimeout]
      rw [hpress]
      refine ⟨⟨htext,hopen,.holding (s.timers.now + 30) (s.timers.now + 60) ?_ ?_⟩,?_⟩
      · simp only [State.setTimeout,EventLoop.Timers.start,hpending,List.nil_append,List.singleton_append]
      · change s.frames ++ [[0x01,hold.modifiers,hold.key,0,0,0,0,0]] ++ [released] = strokes (text.take (s.i + 1))
        rw [hnext,htyped,hframes,List.append_assoc]
        rfl
      · simp only [remaining,State.setTimeout,EventLoop.Timers.start,hpending,List.nil_append,List.singleton_append,
          List.length_cons,List.length_nil]
        omega

theorem fire_sound (h : Sound text s) {n : ℕ} (hs : step s (.fire n) = some s') :
    Sound text s' ∧ remaining s' < remaining s := by
  obtain ⟨r,hr,rfl⟩ := Option.map_eq_some_iff.mp hs
  have hnone : s.timers.pending ≠ [] := by
    intro hpending
    obtain ⟨t,ht,_⟩ := EventLoop.Timers.fire_eq_some.mp hr
    rw [hpending] at ht
    cases ht
  cases h.phase with
  | waiting due pending frames =>
    cases EventLoop.Timers.fire_first pending (by simp) hr
    obtain ⟨hsound,hle⟩ := interval_sound (s := { s with timers := { s.timers with pending := [] } }) h.same
      h.channelOpen rfl frames
    refine ⟨hsound,Nat.lt_of_le_of_lt hle ?_⟩
    simp only [remaining,pending,List.length_nil,List.length_singleton]
    omega
  | holding due next pending frames =>
    cases EventLoop.Timers.fire_first pending (by simp) hr
    have hrelease := sendHid_open (s := { s with timers := { s.timers with pending := [⟨60,next,.interval⟩] } })
      h.channelOpen released
    simp only [State.call,hrelease]
    refine ⟨⟨h.same,h.channelOpen,.waiting next rfl frames⟩,?_⟩
    simp only [remaining,pending,List.length_cons,List.length_nil]
    omega
  | finished pending frames => exact absurd pending hnone
  | empty htext pending frames => exact absurd pending hnone

theorem step_sound (h : Sound text s) {a : Action} (hs : step s a = some s') : Sound text s' := by
  cases a with
  | elapse time =>
    cases hs
    exact elapse_sound h time
  | fire n => exact (fire_sound h hs).1

theorem run_sound {actions : List Action} (h : Run step (typeText text true) actions s) : Sound text s :=
  h.invariant (P := fun _ s => Sound text s) (typeText_sound text) fun _ _ _ _ _ hsound hs => step_sound hsound hs

def isCall : Action → Bool
  | .elapse _ => false
  | .fire _ => true

/-- Two calls for each character, and the last of the interval. -/
theorem calls_le {actions : List Action} (h : Run step (typeText text true) actions s) :
    actions.countP isCall + remaining s ≤ 2 * text.length + 1 := by
  have hstart : remaining (typeText text true) ≤ 2 * text.length + 1 := by
    unfold typeText
    split
    · exact Nat.le_succ _
    · exact le_refl _
  induction h with
  | init => simpa using hstart
  | @next actions before after a hprev hs ih =>
    cases a with
    | elapse time =>
      cases hs
      exact ih
    | fire n =>
      have hless := (fire_sound (run_sound hprev) hs).2
      rw [List.countP_cons_of_pos rfl]
      omega

/-- From any point the text is typed to its end. -/
theorem completes (h : Sound text s) : ∃ more s', Run step s more s' ∧ s'.timers.pending = [] := by
  induction hn : remaining s using Nat.strong_induction_on generalizing s with
  | _ n ih =>
    cases hpending : s.timers.pending with
    | nil => exact ⟨[],s,.init,hpending⟩
    | cons t rest =>
      obtain ⟨time,hfire⟩ := EventLoop.Timers.exists_fire hpending
      have helapse : step s (.elapse time) = some { s with timers := s.timers.elapse time } := rfl
      have hsound := elapse_sound h time
      obtain ⟨after,hcall⟩ : ∃ after, step { s with timers := s.timers.elapse time } (.fire 0) = some after := by
        simp only [step,hfire]
        exact ⟨_,rfl⟩
      obtain ⟨hafter,hless⟩ := fire_sound hsound hcall
      obtain ⟨more,s',hrun,hover⟩ := ih _ (hn ▸ hless) hafter rfl
      exact ⟨more ++ [.fire 0,.elapse time],s',((Run.single helapse).next hcall).trans hrun,hover⟩

/-- Whenever both timers have run out, the target has read the text, and they do run out. -/
theorem typeText_types (text : List UInt16) (actions : List Action) (s : State)
    (h : Run step (typeText text true) actions s) :
    (s.timers.pending = [] → Typed text s.frames) ∧ ∃ more s', Run step s more s' ∧ s'.timers.pending = [] := by
  have hsound := run_sound h
  refine ⟨fun hover => ?_,completes hsound⟩
  cases hsound.phase with
  | waiting due pending frames =>
    rw [pending] at hover
    cases hover
  | holding due next pending frames =>
    rw [pending] at hover
    cases hover
  | finished pending frames =>
    rw [frames]
    exact typed_strokes text
  | empty htext pending frames =>
    rw [htext,frames]
    exact ⟨rfl,fun hne => absurd rfl hne⟩

/-- "aA", with both timers late. -/
def twoCharacters : List Action :=
  [.elapse 70,.fire 0,.elapse 95,.fire 0,.fire 0,.elapse 60,.fire 0,.fire 0]

theorem typeText_types_twoCharacters :
    ∃ s, Run step (typeText [0x61,0x41] true) twoCharacters.reverse s ∧
      (s.timers.pending = [] → Typed [0x61,0x41] s.frames) ∧
      ∃ more s', Run step s more s' ∧ s'.timers.pending = [] := by
  obtain ⟨s,hrun,-⟩ := exists_run_of_replay step (typeText [0x61,0x41] true) twoCharacters
    (fun s => decide (s.timers.pending = [] ∧ s.frames.length = 5)) (by decide +kernel)
  exact ⟨s,hrun,typeText_types [0x61,0x41] twoCharacters.reverse s hrun⟩

end TypedText
end AnyKvm
