import AnyKvm.BrowserToUsb

/-! `app.js`: quick actions and typed texts next to the captured keys.
Each of them writes whole keyboard reports; the timers fire in any order. -/
namespace AnyKvm
namespace Browser

open Transition
open Hid (Frame)

/-- What an action holds down until its release. -/
structure Hold where
  modifiers : UInt8
  key : UInt8
  deriving DecidableEq, Repr

/-- An interval of `typeText`: the UTF-16 code units of the text, and how far it has come. -/
structure Typing where
  text : List UInt16
  i : ℕ
  deriving DecidableEq, Repr

def charMap : List (Char × UInt8) :=
  [('a',0x04),('b',0x05),('c',0x06),('d',0x07),('e',0x08),('f',0x09),('g',0x0A),('h',0x0B),
    ('i',0x0C),('j',0x0D),('k',0x0E),('l',0x0F),('m',0x10),('n',0x11),('o',0x12),('p',0x13),
    ('q',0x14),('r',0x15),('s',0x16),('t',0x17),('u',0x18),('v',0x19),('w',0x1A),('x',0x1B),
    ('y',0x1C),('z',0x1D),('1',0x1e),('2',0x1f),('3',0x20),('4',0x21),('5',0x22),
    ('6',0x23),('7',0x24),('8',0x25),('9',0x26),('0',0x27),('\n',0x28),(' ',0x2c),('-',0x2d),('=',0x2e),
    ('[',0x2f),(']',0x30),('\\',0x31),(';',0x33),('\x27',0x34),('\x60',0x35),(',',0x36),('.',0x37),
    ('/',0x38),('\t',0x2b)]

def shiftMap : List (Char × UInt8) :=
  [('A',0x04),('B',0x05),('C',0x06),('D',0x07),('E',0x08),('F',0x09),('G',0x0A),('H',0x0B),
    ('I',0x0C),('J',0x0D),('K',0x0E),('L',0x0F),('M',0x10),('N',0x11),('O',0x12),('P',0x13),
    ('Q',0x14),('R',0x15),('S',0x16),('T',0x17),('U',0x18),('V',0x19),('W',0x1A),('X',0x1B),
    ('Y',0x1C),('Z',0x1D),('!',0x1e),('@',0x1f),('#',0x20),('$',0x21),('%',0x22),
    ('^',0x23),('&',0x24),('*',0x25),('(',0x26),(')',0x27),('_',0x2d),('+',0x2e),('\x7b',0x2f),('\x7d',0x30),
    ('|',0x31),(':',0x33),('\x22',0x34),('~',0x35),('<',0x36),('>',0x37),('?',0x38)]

/-- `charMap[ch]`, for a code unit. -/
def lookupUnit (table : List (Char × UInt8)) (unit : UInt16) : Option UInt8 :=
  (table.find? fun entry => entry.1.toNat = unit.toNat).map Prod.snd

/-- The key of a character, with Shift where it takes that; other characters are left out. -/
def typed (unit : UInt16) : Option Hold :=
  match lookupUnit charMap unit with
  | some key => some ⟨0,key⟩
  | none => (lookupUnit shiftMap unit).map fun key => ⟨0x02,key⟩

/-- `seen` is what the last report has told the target; `opened` are the actions that are still to be
released. -/
structure State where
  hid : HidState
  opened : List Hold
  typing : List Typing
  seen : UInt8 × List UInt8
  deriving DecidableEq

/-- `release` is the timer of an action, and `tick` the interval of a text. -/
inductive Action
  | keyDown (code : String)
  | keyUp (code : String)
  | sendKeyCombo (hold : Hold)
  | release (hold : Hold)
  | typeText (text : List UInt16)
  | tick (run : ℕ)
  deriving DecidableEq

def released : Frame := [0x01,0,0,0,0,0,0,0]

namespace State
variable (s : State)

def start : State := ⟨{},[],[],(0,List.replicate 6 0)⟩

/-- The agent passes modifiers and keys on as they are. -/
def send (frame : Frame) : State :=
  match Hid.input frame with
  | .keyboard modifiers keys => { s with seen := (modifiers,keys) }
  | _ => s

def key (hid : HidState) : State := ({ s with hid := hid } : State).send (sendKeyboard hid)

/-- The report of an action, with its timer. -/
def press (hold : Hold) : State :=
  ({ s with opened := hold :: s.opened } : State).send [0x01,hold.modifiers,hold.key,0,0,0,0,0]

def release (hold : Hold) : Option State :=
  if hold ∈ s.opened then some (({ s with opened := s.opened.erase hold } : State).send released) else none

/-- The text is over, or its next character is pressed if it has a key. -/
def tick (run : ℕ) : Option State :=
  s.typing[run]?.map fun t =>
    match t.text[t.i]? with
    | none => ({ s with typing := s.typing.eraseIdx run } : State).send released
    | some unit =>
      let s : State := { s with typing := s.typing.set run { t with i := t.i + 1 } }
      match typed unit with
      | some hold => s.press hold
      | none => s

end State

def step (s : State) : Action → Option State
  | .keyDown code => some (s.key (onKeyDown s.hid code))
  | .keyUp code => some (s.key (onKeyUp s.hid code))
  | .sendKeyCombo hold => some (s.press hold)
  | .release hold => s.release hold
  | .typeText text => if text = [] then none else some { s with typing := s.typing ++ [⟨text,0⟩] }
  | .tick run => s.tick run

def openModifiers (opened : List Hold) : UInt8 := opened.foldr (fun hold mods => hold.modifiers ||| mods) 0

def Down (hid : HidState) (opened : List Hold) (key : UInt8) : Prop :=
  key ≠ 0 ∧ (key ∈ hid.keys.toList.take 6 ∨ ∃ hold ∈ opened, hold.key = key)

def downModifiers (hid : HidState) (opened : List Hold) : UInt8 := hid.modifier ||| openModifiers opened

/-- The target sees what is held, by hand or by the actions, and nothing else. -/
structure Undisturbed (s : State) : Prop where
  modifiers : s.seen.1 = downModifiers s.hid s.opened
  keys : ∀ key, key ≠ 0 ∧ key ∈ s.seen.2 ↔ Down s.hid s.opened key

def OnlyDown (hid : HidState) (opened : List Hold) (modifiers : UInt8) (keys : List UInt8) : Prop :=
  downModifiers hid opened ||| modifiers = modifiers ∧ ∀ key, Down hid opened key → key ∈ keys

/-- The writer of a report holds all that is held: at a key event the hand, at a press the action, and at a
release or at the end of a text nobody. -/
def Alone (s : State) : Action → Prop
  | .keyDown code =>
    let hid := onKeyDown s.hid code
    OnlyDown hid s.opened hid.modifier (hid.keys.toList.take 6)
  | .keyUp code =>
    let hid := onKeyUp s.hid code
    OnlyDown hid s.opened hid.modifier (hid.keys.toList.take 6)
  | .sendKeyCombo hold => OnlyDown s.hid s.opened hold.modifiers [hold.key]
  | .release hold => OnlyDown s.hid (s.opened.erase hold) 0 []
  | .typeText _ => True
  | .tick run => ∀ t, s.typing[run]? = some t →
      match t.text[t.i]? with
      | none => OnlyDown s.hid s.opened 0 []
      | some unit => ∀ hold, typed unit = some hold → OnlyDown s.hid s.opened hold.modifiers [hold.key]

theorem mem_sixKeys {keys : List UInt8} {key : UInt8} (h : key ≠ 0) :
    key ∈ sixKeys keys ↔ key ∈ keys.take 6 := by
  rw [sixKeys,List.mem_append,List.mem_replicate]
  exact ⟨fun hmem => hmem.resolve_right fun hzero => h hzero.2,.inl⟩

theorem send_keyboard (s : State) (modifiers : UInt8) {keys : List UInt8} (h : keys.length = 6) :
    s.send (0x01 :: modifiers :: keys) = { s with seen := (modifiers,keys) } := by
  rw [State.send,input_keyboard modifiers h]

theorem key_eq (s : State) (hid : HidState) :
    s.key hid = { s with hid := hid, seen := (hid.modifier,sixKeys hid.keys.toList) } :=
  send_keyboard _ _ (length_sixKeys _)

theorem press_eq (s : State) (hold : Hold) :
    s.press hold =
      { s with opened := hold :: s.opened, seen := (hold.modifiers,[hold.key,0,0,0,0,0]) } :=
  send_keyboard _ _ rfl

theorem released_eq (s : State) : s.send released = { s with seen := (0,List.replicate 6 0) } :=
  send_keyboard _ _ rfl

variable {hid : HidState} {opened : List Hold} {hold : Hold} {s s' : State} {a : Action} {as : List Action}

theorem OnlyDown.congr {keys keys' : List UInt8} (h : ∀ key, key ≠ 0 → (key ∈ keys ↔ key ∈ keys'))
    (modifiers : UInt8) : OnlyDown hid opened modifiers keys ↔ OnlyDown hid opened modifiers keys' := by
  unfold OnlyDown
  refine and_congr_right fun _ => forall_congr' fun key => forall_congr' fun hdown => ?_
  exact h key hdown.1

/-- After a report of some who hold what it tells, the target sees what is held exactly if they are the only
ones. -/
theorem undisturbed_iff (hmodifiers : s.seen.1 ||| downModifiers s.hid s.opened = downModifiers s.hid s.opened)
    (hkeys : ∀ key, key ≠ 0 → key ∈ s.seen.2 → Down s.hid s.opened key) :
    Undisturbed s ↔ OnlyDown s.hid s.opened s.seen.1 s.seen.2 := by
  constructor
  · rintro ⟨hmods,hdown⟩
    refine ⟨?_,fun key hkey => ((hdown key).mpr hkey).2⟩
    rw [hmods]
    exact UInt8.or_self
  · rintro ⟨hmods,hdown⟩
    refine ⟨?_,fun key => ⟨fun h => hkeys key h.1 h.2,fun h => ⟨h.1,hdown key h⟩⟩⟩
    rw [← hmodifiers,UInt8.or_comm,hmods]

theorem downModifiers_cons (hid : HidState) (hold : Hold) (opened : List Hold) :
    downModifiers hid (hold :: opened) = hold.modifiers ||| downModifiers hid opened := by
  change hid.modifier ||| (hold.modifiers ||| openModifiers opened) = hold.modifiers ||| (hid.modifier ||| _)
  rw [← UInt8.or_assoc,← UInt8.or_assoc,UInt8.or_comm hid.modifier]

theorem down_cons {key : UInt8} :
    Down hid (hold :: opened) key ↔ key ≠ 0 ∧ key = hold.key ∨ Down hid opened key := by
  unfold Down
  rw [List.exists_mem_cons_iff,eq_comm (a := hold.key)]
  tauto

theorem onlyDown_cons : OnlyDown hid (hold :: opened) hold.modifiers [hold.key] ↔
    OnlyDown hid opened hold.modifiers [hold.key] := by
  unfold OnlyDown
  refine and_congr ?_ (forall_congr' fun key => ?_)
  · rw [downModifiers_cons,UInt8.or_comm hold.modifiers,UInt8.or_assoc,UInt8.or_self]
  · rw [down_cons,List.mem_singleton]
    tauto

theorem undisturbed_key (s : State) (hid : HidState) :
    Undisturbed (s.key hid) ↔ OnlyDown hid s.opened hid.modifier (hid.keys.toList.take 6) := by
  rw [key_eq,undisturbed_iff]
  · exact OnlyDown.congr (fun key => mem_sixKeys) _
  · rw [downModifiers,← UInt8.or_assoc,UInt8.or_self]
  · intro key hkey hmem
    exact ⟨hkey,.inl ((mem_sixKeys hkey).mp hmem)⟩

theorem undisturbed_press (s : State) (hold : Hold) :
    Undisturbed (s.press hold) ↔ OnlyDown s.hid s.opened hold.modifiers [hold.key] := by
  have hmem : ∀ key, key ≠ 0 → (key ∈ [hold.key,0,0,0,0,0] ↔ key ∈ [hold.key]) := by
    intro key hkey
    simp [hkey]
  rw [press_eq,undisturbed_iff]
  · exact (OnlyDown.congr hmem _).trans onlyDown_cons
  · rw [downModifiers_cons,← UInt8.or_assoc,UInt8.or_self]
  · intro key hkey hkeys
    exact down_cons.mpr (.inl ⟨hkey,List.mem_singleton.mp ((hmem key hkey).mp hkeys)⟩)

theorem undisturbed_released (s : State) : Undisturbed (s.send released) ↔ OnlyDown s.hid s.opened 0 [] := by
  have hmem : ∀ key, key ≠ 0 → (key ∈ List.replicate 6 (0 : UInt8) ↔ key ∈ []) := by
    intro key hkey
    simp [hkey]
  rw [released_eq,undisturbed_iff]
  · exact OnlyDown.congr hmem _
  · exact UInt8.zero_or
  · intro key hkey hkeys
    cases (hmem key hkey).mp hkeys

theorem Undisturbed.congr (h : Undisturbed s) (hhid : s'.hid = s.hid) (hopened : s'.opened = s.opened)
    (hseen : s'.seen = s.seen) : Undisturbed s' := by
  refine ⟨?_,?_⟩
  · rw [hhid,hopened,hseen]
    exact h.modifiers
  · rw [hhid,hopened,hseen]
    exact h.keys

theorem undisturbed_step (h : Undisturbed s) (hs : step s a = some s') : Alone s a ↔ Undisturbed s' := by
  cases a with
  | keyDown code =>
    cases Option.some.inj hs
    exact (undisturbed_key s _).symm
  | keyUp code =>
    cases Option.some.inj hs
    exact (undisturbed_key s _).symm
  | sendKeyCombo hold =>
    cases Option.some.inj hs
    exact (undisturbed_press s hold).symm
  | release hold =>
    simp only [step,State.release] at hs
    split at hs
    · cases Option.some.inj hs
      exact (undisturbed_released { s with opened := s.opened.erase hold }).symm
    · cases hs
  | typeText text =>
    simp only [step] at hs
    split at hs
    · cases hs
    · cases Option.some.inj hs
      exact ⟨fun _ => h.congr rfl rfl rfl,fun _ => trivial⟩
  | tick run =>
    obtain ⟨t,ht,hs⟩ := Option.map_eq_some_iff.mp hs
    have halone : Alone s (.tick run) ↔ match t.text[t.i]? with
        | none => OnlyDown s.hid s.opened 0 []
        | some unit => ∀ hold, typed unit = some hold → OnlyDown s.hid s.opened hold.modifiers [hold.key] := by
      refine ⟨fun ha => ha t ht,fun ha t' ht' => ?_⟩
      cases ht.symm.trans ht'
      exact ha
    rw [halone]
    cases hunit : t.text[t.i]? with
    | none =>
      rw [hunit] at hs
      cases hs
      exact (undisturbed_released { s with typing := s.typing.eraseIdx run }).symm
    | some unit =>
      rw [hunit] at hs
      dsimp only at hs ⊢
      cases htyped : typed unit with
      | none =>
        rw [htyped] at hs
        cases hs
        exact ⟨fun _ => h.congr rfl rfl rfl,fun _ _ hnone => nomatch hnone⟩
      | some hold =>
        rw [htyped] at hs
        cases hs
        rw [undisturbed_press]
        exact ⟨fun ha => ha hold rfl,fun ha hold' hhold => Option.some.inj hhold ▸ ha⟩

theorem undisturbed_start : Undisturbed .start := by
  refine ⟨rfl,fun key => ⟨?_,?_⟩⟩
  · rintro ⟨hkey,hmem⟩
    exact absurd (List.eq_of_mem_replicate hmem) hkey
  · rintro ⟨_,hmem | ⟨hold,hhold,_⟩⟩
    · cases hmem
    · cases hhold

/-- The target sees what is held, all along a run, exactly if everyone who writes a report is the only one who
holds anything down. -/
theorem always_undisturbed_iff (h : Run step .start as s) :
    Always step .start (fun _ s => Undisturbed s) as ↔ GuardedRun step .start (fun _ s a => Alone s a) as s :=
  h.always_iff_guarded undisturbed_start fun _ _ _ _ _ hundisturbed hs => undisturbed_step hundisturbed hs

instance (hid : HidState) (opened : List Hold) (key : UInt8) : Decidable (Down hid opened key) :=
  inferInstanceAs (Decidable (_ ∧ _))

/-- Only the keys that somebody holds or that the target sees matter. -/
theorem undisturbed_iff_mem : Undisturbed s ↔ s.seen.1 = downModifiers s.hid s.opened ∧
    ∀ key ∈ s.seen.2 ++ (s.hid.keys.toList.take 6 ++ s.opened.map Hold.key),
      (key ≠ 0 ∧ key ∈ s.seen.2 ↔ Down s.hid s.opened key) := by
  constructor
  · exact fun h => ⟨h.modifiers,fun key _ => h.keys key⟩
  · rintro ⟨hmodifiers,hkeys⟩
    refine ⟨hmodifiers,fun key => ?_⟩
    by_cases hmem : key ∈ s.seen.2 ++ (s.hid.keys.toList.take 6 ++ s.opened.map Hold.key)
    · exact hkeys key hmem
    · simp only [List.mem_append,List.mem_map,not_or] at hmem
      obtain ⟨hseen,hhid,hopened⟩ := hmem
      exact iff_of_false (fun h => hseen h.2) fun h => h.2.elim hhid hopened

instance : DecidablePred Undisturbed := fun _ =>
  @decidable_of_iff _ _ undisturbed_iff_mem.symm (@instDecidableAnd _ _ _ (List.decidableBAll _ _))

/-- Shift+A by hand, the text `Hi`, and Ctrl+C from the menu while Ctrl is held by hand. -/
def inTurn : List Action :=
  [.keyDown "ShiftLeft",.keyDown "KeyA",.keyUp "KeyA",.keyUp "ShiftLeft",.typeText [0x48,0x69],.tick 0,
    .release ⟨0x02,0x0B⟩,.tick 0,.release ⟨0,0x0C⟩,.tick 0,.keyDown "ControlLeft",.sendKeyCombo ⟨0x01,0x06⟩]

theorem always_undisturbed_inTurn : ∃ s, Run step .start inTurn.reverse s ∧
    (s.hid.modifier = 0x01 ∧ s.opened = [⟨0x01,0x06⟩]) ∧
    Always step .start (fun _ s => Undisturbed s) inTurn.reverse ∧
    GuardedRun step .start (fun _ s a => Alone s a) inTurn.reverse s := by
  obtain ⟨s,hrun,hp⟩ := exists_run_of_replay step .start inTurn
    (fun s => s.hid.modifier = 0x01 ∧ s.opened = [⟨0x01,0x06⟩]) (by decide +kernel)
  have halways : Always step .start (fun _ s => decide (Undisturbed s) = true) inTurn.reverse :=
    always_of_replay inTurn _ (by decide +kernel)
  have hundisturbed : Always step .start (fun _ s => Undisturbed s) inTurn.reverse :=
    fun as s hsuf hrun => of_decide_eq_true (halways as s hsuf hrun)
  exact ⟨s,hrun,of_decide_eq_true hp,hundisturbed,(always_undisturbed_iff hrun).mp hundisturbed⟩

/-- The key A is held, and Ctrl+C is sent: the target sees A let go. -/
theorem combo_releases_held_key : ¬ ∀ as s, Run step .start as s → Undisturbed s := by
  intro h
  obtain ⟨s,hrun,hp⟩ := exists_run_of_replay step .start [.keyDown "KeyA",.sendKeyCombo ⟨0x01,0x06⟩]
    (fun s => s.hid.keys.toList = [0x04] ∧ s.seen.2 = [0x06,0,0,0,0,0]) (by decide +kernel)
  obtain ⟨hheld,hseen⟩ := of_decide_eq_true hp
  have hdown : Down s.hid s.opened 0x04 := by
    refine ⟨by decide,.inl ?_⟩
    rw [hheld]
    exact List.mem_singleton.mpr rfl
  have hmem := (((h _ s hrun).keys 0x04).mpr hdown).2
  rw [hseen] at hmem
  exact absurd hmem (by decide)

end Browser
end AnyKvm
