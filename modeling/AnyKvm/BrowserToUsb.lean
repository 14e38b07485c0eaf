import AnyKvm.BackEnds
import AnyKvm.Browser

/-! From the events of the browser to the reports of the USB gadget.
The channel is reliable and in order: the gadget handles the frames as they have been sent. -/
namespace AnyKvm
namespace Browser

open Hid

/-- The loop of `run_gadget` over all frames, newest first, with what each of them has led to. -/
def runGadget : List Frame → Gadget × List (Effect Report)
  | [] => ({ kbd := true, mouse := true },[])
  | frame :: frames =>
    let before := runGadget frames
    let r := before.1.onFrame frame
    (r.1,r.2 :: before.2)

def reportOf (device : Device) (effect : Effect Report) : Option (List UInt8) :=
  effect.report.bind fun report => if report.device = device then some report.bytes else none

def isKey : Event → Bool
  | .keyDown _ | .keyUp _ => true
  | _ => false

/-- The modifiers that are held, and the first six of the other keys that are. -/
def keyboardReport (codes : List String) : List UInt8 :=
  modifiers codes :: 0x00 :: sixKeys (codes.filterMap usage?)

/-- The coordinates that have been sent last; the agent starts in the middle. -/
def lastSent : List Event → ℕ × ℕ
  | [] => (0x3fff,0x3fff)
  | .mouseMove m :: _ => (m.ax,m.ay)
  | _ :: events => lastSent events

def wheelByte? : Event → Option UInt8
  | .mouseMove _ | .mouseDown _ | .mouseUp _ => some 0
  | .wheel deltaY => some (UInt8.ofInt (-sign deltaY))
  | _ => none

/-- Buttons, then the coordinates with the low byte first, then the wheel. -/
def mouseReport (buttons : UInt8) (at' : ℕ × ℕ) (wheel : UInt8) : List UInt8 :=
  [buttons,UInt8.ofNat (at'.1 % 256),UInt8.ofNat (at'.1 / 256),
    UInt8.ofNat (at'.2 % 256),UInt8.ofNat (at'.2 / 256),wheel]

/-- The mouse reports, one for each event of the mouse, with the buttons and coordinates of its time. -/
def mouseReports : List Event → List (List UInt8)
  | [] => []
  | event :: events =>
    ((wheelByte? event).map (mouseReport (session (event :: events)).1.buttons
      (lastSent (event :: events)))).toList ++ mouseReports events

/-- The command for the video. Sixteen bits of each extent are sent and eight of a rate: what fits is sent
as it is. -/
def request? : Event → Option VideoControl
  | .changeResolution w h =>
    if w = 0 ∨ h = 0 then none
    else some (.changeResolution (UInt32.ofNat (w % 65536)) (UInt32.ofNat (h % 65536)))
  | .changeFps fps => if fps = 0 then none else some (.changeFps (UInt32.ofNat (fps % 256)))
  | _ => none

/-- What has come out of the gadget once all frames are handled. -/
structure Delivered (events : List Event) (r : Gadget × List (Effect Report)) : Prop where
  keyboard : (r.2.filterMap (reportOf .keyboard)).head? =
    if events.any isKey then some (keyboardReport (held events)) else none
  buttons : r.1.lastButtons = (session events).1.buttons
  mouse : r.2.filterMap (reportOf .mouse) = mouseReports events
  range : (lastSent events).1 ≤ 32767 ∧ (lastSent events).2 ≤ 32767
  commands : r.2.filterMap Effect.command = events.filterMap request?

theorem and_not_of_disjoint {b c : UInt8} (h : b &&& c = 0) : b &&& ~~~c = b := by
  rw [← UInt8.toBitVec_inj] at h ⊢
  ext i hi
  have hbit : (b.toBitVec[i] && c.toBitVec[i]) = false := by
    rw [← BitVec.getElem_and,← UInt8.toBitVec_and,h]
    exact BitVec.getElem_zero hi
  simp only [UInt8.toBitVec_and,UInt8.toBitVec_not,BitVec.getElem_and,BitVec.getElem_not]
  grind

theorem or_and_distrib_right (b m c : UInt8) : (b ||| m) &&& c = (b &&& c) ||| (m &&& c) := by
  rw [← UInt8.toBitVec_inj]
  ext i hi
  simp only [UInt8.toBitVec_and,UInt8.toBitVec_or,BitVec.getElem_and,BitVec.getElem_or]
  exact Bool.and_or_distrib_right _ _ _

theorem modifierBit_disjoint {c d : String} (h : c ≠ d) : modifierBit c &&& modifierBit d = 0 := by
  unfold modifierBit
  split <;> split <;> first | rfl | exact absurd rfl h

variable {codes : List String} {code : String}

theorem modifiers_cons (code : String) (codes : List String) :
    modifiers (code :: codes) = modifierBit code ||| modifiers codes := rfl

theorem modifiers_disjoint (h : code ∉ codes) : modifiers codes &&& modifierBit code = 0 := by
  induction codes with
  | nil => exact UInt8.zero_and
  | cons c codes ih =>
    have hne : c ≠ code := (List.ne_of_not_mem_cons h).symm
    rw [modifiers_cons,or_and_distrib_right,modifierBit_disjoint hne,
      ih (List.not_mem_of_not_mem_cons h),UInt8.zero_or]

theorem modifiers_concat (codes : List String) (code : String) :
    modifiers (codes ++ [code]) = modifiers codes ||| modifierBit code := by
  induction codes with
  | nil => exact UInt8.or_comm _ _
  | cons c codes ih => rw [List.cons_append,modifiers_cons,ih,modifiers_cons,UInt8.or_assoc]

theorem modifiers_of_mem (h : code ∈ codes) : modifiers codes ||| modifierBit code = modifiers codes := by
  induction codes with
  | nil => cases h
  | cons c codes ih =>
    rw [modifiers_cons,UInt8.or_assoc]
    rcases List.mem_cons.mp h with rfl | h
    · rw [UInt8.or_comm (modifiers codes),← UInt8.or_assoc,UInt8.or_self]
    · rw [ih h]

theorem modifiers_erase (h : codes.Nodup) (code : String) :
    modifiers (codes.erase code) = modifiers codes &&& ~~~modifierBit code := by
  induction codes with
  | nil => exact UInt8.zero_and.symm
  | cons c codes ih =>
    obtain ⟨hc,hrest⟩ := List.nodup_cons.mp h
    rw [modifiers_cons,or_and_distrib_right]
    by_cases hcode : c = code
    · subst hcode
      rw [List.erase_cons_head,UInt8.and_not_self,UInt8.zero_or,and_not_of_disjoint (modifiers_disjoint hc)]
    · rw [List.erase_cons_tail (by simpa using hcode),modifiers_cons,ih hrest,
        and_not_of_disjoint (modifierBit_disjoint hcode)]

theorem keyMap_nodup : ((keyMap.filter (·.2 ≠ 0)).map Prod.snd).Nodup := by
  have hchain : ((keyMap.filter (·.2 ≠ 0)).map Prod.snd).IsChain (· < ·) := by decide +kernel
  exact (List.isChain_iff_pairwise.mp hchain).imp fun h => UInt8.ne_of_lt h

theorem mem_of_lookup {l : List (String × UInt8)} {v : UInt8} (h : l.lookup code = some v) :
    (code,v) ∈ l := by
  obtain ⟨pre,post,rfl,_⟩ := List.lookup_eq_some_iff.mp h
  exact List.mem_append_right _ List.mem_cons_self

theorem usage?_injective {c d : String} {usage : UInt8} (hc : usage? c = some usage)
    (hd : usage? d = some usage) : c = d := by
  have hmem : ∀ c, usage? c = some usage → (c,usage) ∈ keyMap.filter (·.2 ≠ 0) := by
    intro c hc
    unfold usage? at hc
    split at hc
    · cases hc
    · obtain ⟨hlookup,hne⟩ := Option.filter_eq_some_iff.mp hc
      exact List.mem_filter.mpr ⟨mem_of_lookup hlookup,hne⟩
  exact congrArg Prod.fst (List.inj_on_of_nodup_map keyMap_nodup (hmem c hc) (hmem d hd) rfl)

theorem mem_usages {usage : UInt8} (h : usage? code = some usage) :
    usage ∈ codes.filterMap usage? ↔ code ∈ codes := by
  constructor
  · intro hmem
    obtain ⟨c,hc,husage⟩ := List.mem_filterMap.mp hmem
    rwa [usage?_injective h husage]
  · intro hmem
    exact List.mem_filterMap.mpr ⟨code,hmem,h⟩

theorem usages_erase (codes : List String) {usage : UInt8} (h : usage? code = some usage) :
    (codes.erase code).filterMap usage? = (codes.filterMap usage?).erase usage := by
  induction codes with
  | nil => rfl
  | cons c codes ih =>
    by_cases hcode : c = code
    · subst hcode
      rw [List.erase_cons_head,List.filterMap_cons_some h,List.erase_cons_head]
    · rw [List.erase_cons_tail (by simpa using hcode)]
      cases hc : usage? c with
      | none => rw [List.filterMap_cons_none hc,List.filterMap_cons_none hc,ih]
      | some other =>
        have hother : other ≠ usage := by
          rintro rfl
          exact hcode (usage?_injective hc h)
        rw [List.filterMap_cons_some hc,List.filterMap_cons_some hc,ih,
          List.erase_cons_tail (by simpa using hother)]

theorem usages_erase_none (codes : List String) (h : usage? code = none) :
    (codes.erase code).filterMap usage? = codes.filterMap usage? := by
  induction codes with
  | nil => rfl
  | cons c codes ih =>
    by_cases hcode : c = code
    · subst hcode
      rw [List.erase_cons_head,List.filterMap_cons_none h]
    · rw [List.erase_cons_tail (by simpa using hcode)]
      cases hc : usage? c with
      | none => rw [List.filterMap_cons_none hc,List.filterMap_cons_none hc,ih]
      | some other => rw [List.filterMap_cons_some hc,List.filterMap_cons_some hc,ih]

theorem onKeyDown_spec (hid : HidState) (code : String) :
    onKeyDown hid code = { hid with
      modifier := hid.modifier ||| modifierBit code
      keys := (usage? code).elim hid.keys hid.keys.add } := by
  unfold onKeyDown usage?
  by_cases hmod : modifierBit code = 0
  · simp only [hmod,ne_eq,not_true_eq_false,if_false,UInt8.or_zero]
    cases keyMap.lookup code with
    | none => rfl
    | some usage => by_cases husage : usage = 0 <;> simp [husage,Option.filter]
  · simp only [hmod,ne_eq,not_false_eq_true,if_true]
    rfl

theorem onKeyUp_spec (hid : HidState) (code : String) :
    onKeyUp hid code = { hid with
      modifier := hid.modifier &&& ~~~modifierBit code
      keys := (usage? code).elim hid.keys hid.keys.delete } := by
  unfold onKeyUp usage?
  by_cases hmod : modifierBit code = 0
  · simp only [hmod,ne_eq,not_true_eq_false,if_false]
    rw [and_not_of_disjoint UInt8.and_zero]
    cases keyMap.lookup code with
    | none => rfl
    | some usage => by_cases husage : usage = 0 <;> simp [husage,Option.filter]
  · simp only [hmod,ne_eq,not_false_eq_true,if_true]
    rfl

theorem held_nodup (events : List Event) : (held events).Nodup := by
  induction events with
  | nil => exact List.nodup_nil
  | cons event events ih =>
    cases event with
    | keyDown code =>
      rw [held]
      split
      · exact ih
      · exact List.nodup_append_comm.mp (List.nodup_cons.mpr ⟨‹_›,ih⟩)
    | keyUp code => exact ih.erase code
    | _ => exact ih

theorem session_keyboard (events : List Event) :
    (session events).1.modifier = modifiers (held events) ∧
      (session events).1.keys.toList = (held events).filterMap usage? := by
  induction events with
  | nil => exact ⟨rfl,rfl⟩
  | cons event events ih =>
    obtain ⟨hmodifier,hkeys⟩ := ih
    cases event with
    | keyDown code =>
      change (onKeyDown (session events).1 code).modifier = _ ∧
        (onKeyDown (session events).1 code).keys.toList = _
      rw [onKeyDown_spec,held]
      dsimp only
      rw [hmodifier]
      by_cases hcode : code ∈ held events
      · rw [if_pos hcode,modifiers_of_mem hcode]
        refine ⟨rfl,?_⟩
        cases husage : usage? code with
        | none => exact hkeys
        | some usage =>
          have hmem : usage ∈ (session events).1.keys.toList := by
            rw [hkeys]
            exact (mem_usages husage).mpr hcode
          rw [Option.elim_some,KeySet.toList_add,if_pos hmem,hkeys]
      · rw [if_neg hcode,modifiers_concat,List.filterMap_append]
        refine ⟨rfl,?_⟩
        cases husage : usage? code with
        | none =>
          rw [List.filterMap_cons_none husage,List.filterMap_nil,List.append_nil]
          exact hkeys
        | some usage =>
          have hmem : usage ∉ (session events).1.keys.toList := by
            rw [hkeys]
            exact mt (mem_usages husage).mp hcode
          rw [Option.elim_some,KeySet.toList_add,if_neg hmem,hkeys,List.filterMap_cons_some husage,List.filterMap_nil]
    | keyUp code =>
      change (onKeyUp (session events).1 code).modifier = _ ∧
        (onKeyUp (session events).1 code).keys.toList = _
      rw [onKeyUp_spec,held,modifiers_erase (held_nodup events)]
      dsimp only
      rw [hmodifier]
      refine ⟨rfl,?_⟩
      cases husage : usage? code with
      | none =>
        rw [usages_erase_none _ husage]
        exact hkeys
      | some usage =>
        rw [usages_erase _ husage,← hkeys]
        rfl
    | _ => exact ⟨hmodifier,hkeys⟩

theorem sendKeyboard_session (events : List Event) :
    sendKeyboard (session events).1 =
      0x01 :: modifiers (held events) :: sixKeys ((held events).filterMap usage?) := by
  obtain ⟨hmodifier,hkeys⟩ := session_keyboard events
  rw [sendKeyboard,hmodifier,hkeys]

theorem length_sixKeys (keys : List UInt8) : (sixKeys keys).length = 6 := by
  rw [sixKeys,List.length_append,List.length_replicate]
  have : (keys.take 6).length ≤ 6 := List.length_take_le 6 keys
  omega

theorem input_keyboard (modifier : UInt8) {keys : List UInt8} (h : keys.length = 6) :
    input (0x01 :: modifier :: keys) = .keyboard modifier keys := by
  match keys, h with
  | [_,_,_,_,_,_],_ => rfl

theorem low_byte (n : ℕ) : (UInt16.ofNat n).toUInt8 = UInt8.ofNat n := by
  rw [← UInt8.toNat_inj]
  simp only [UInt8.toNat_ofNat',UInt16.toNat_toUInt8,UInt16.toNat_ofNat']
  omega

theorem high_byte (n : ℕ) : (UInt16.ofNat n >>> 8).toUInt8 = UInt8.ofNat (n >>> 8) := by
  rw [← UInt8.toNat_inj]
  simp only [UInt8.toNat_ofNat',UInt16.toNat_toUInt8,UInt16.toNat_shiftRight,UInt16.toNat_ofNat',
    UInt16.reduceToNat,Nat.reduceMod,Nat.shiftRight_eq_div_pow]
  omega

/-- A number as the browser splits it, put together again by the agent. -/
theorem u16FromBeBytes_ofNat (n : ℕ) :
    Bytes.u16FromBeBytes (UInt8.ofNat (n >>> 8)) (UInt8.ofNat n) = UInt16.ofNat n := by
  rw [← high_byte,← low_byte,Turn.u16FromBeBytes_toBe]

theorem input_mouseMove (hid : HidState) (ax ay : ℕ) :
    input (sendMouseMove hid ax ay) = .move hid.buttons (UInt16.ofNat ax) (UInt16.ofNat ay) := by
  rw [← u16FromBeBytes_ofNat ax,← u16FromBeBytes_ofNat ay]
  rfl

theorem makeAbsMouseReport_ofNat (buttons : UInt8) (x y : ℕ) (wheel : UInt8) :
    makeAbsMouseReport buttons (UInt16.ofNat x) (UInt16.ofNat y) wheel.toInt8 =
      mouseReport buttons (x,y) wheel := by
  have hlow : ∀ n, UInt8.ofNat (n % 256) = UInt8.ofNat n := by
    intro n
    rw [← UInt8.toNat_inj]
    exact Nat.mod_mod _ _
  simp only [makeAbsMouseReport,mouseReport,toUInt8_masked,low_byte,high_byte,hlow,
    Nat.shiftRight_eq_div_pow]
  rfl

theorem wheel_clamped (v : ℚ) :
    UInt8.ofInt (max (-127) (min 127 (-sign v))) = UInt8.ofInt (-sign v) := by
  unfold sign
  split_ifs <;> rfl

theorem absolute_le (v : ℚ) (extent : ℕ) : absolute v extent ≤ 32767 :=
  Int.toNat_le.mpr (min_le_left _ _)

theorem lastSent_le (events : List Event) : (lastSent events).1 ≤ 32767 ∧ (lastSent events).2 ≤ 32767 := by
  induction events with
  | nil => exact ⟨by decide,by decide⟩
  | cons event events ih =>
    cases event with
    | mouseMove m => exact ⟨absolute_le _ _,absolute_le _ _⟩
    | _ => exact ih

def asked : List Event → Option Input
  | [] => none
  | event :: events =>
    match event with
    | .keyDown _ | .keyUp _ => some (.keyboard (modifiers (held (event :: events)))
        (sixKeys ((held (event :: events)).filterMap usage?)))
    | .mouseMove m =>
      some (.move (session (event :: events)).1.buttons (UInt16.ofNat m.ax) (UInt16.ofNat m.ay))
    | .mouseDown _ | .mouseUp _ => some (.button (session (event :: events)).1.buttons)
    | .wheel deltaY => some (.wheel (UInt8.ofInt (-sign deltaY)))
    | .changeResolution _ _ | .changeFps _ => (request? event).map fun command => .control (some command)

theorem u16_toUInt32 (n : ℕ) : (UInt16.ofNat n).toUInt32 = UInt32.ofNat (n % 65536) := by
  rw [← UInt32.toNat_inj,UInt16.toNat_toUInt32,UInt16.toNat_ofNat',UInt32.toNat_ofNat']
  omega

theorem u8_toUInt32 (n : ℕ) : (UInt8.ofNat n).toUInt32 = UInt32.ofNat (n % 256) := by
  rw [← UInt32.toNat_inj,UInt8.toNat_toUInt32,UInt8.toNat_ofNat',UInt32.toNat_ofNat']
  omega

theorem input_changeResolution (w h : ℕ) : (changeResolutionDirect w h).map input =
    (request? (.changeResolution w h)).map fun command => .control (some command) := by
  by_cases hzero : w = 0 ∨ h = 0
  · rw [changeResolutionDirect,request?,if_pos hzero,if_pos hzero]
    rfl
  · rw [changeResolutionDirect,request?,if_neg hzero,if_neg hzero,← u16_toUInt32,← u16_toUInt32,
      ← u16FromBeBytes_ofNat,← u16FromBeBytes_ofNat]
    rfl

theorem input_changeFps (fps : ℕ) : (changeFpsDirect fps).map input =
    (request? (.changeFps fps)).map fun command => .control (some command) := by
  by_cases hzero : fps = 0
  · rw [changeFpsDirect,request?,if_pos hzero,if_pos hzero]
    rfl
  · rw [changeFpsDirect,request?,if_neg hzero,if_neg hzero,← u8_toUInt32]
    rfl

theorem onEvent_asked (event : Event) (events : List Event) :
    (onEvent (session events).1 event).2.map input = asked (event :: events) := by
  have hkeyboard : input (sendKeyboard (session (event :: events)).1) =
      .keyboard (modifiers (held (event :: events))) (sixKeys ((held (event :: events)).filterMap usage?)) := by
    rw [sendKeyboard_session,input_keyboard _ (length_sixKeys _)]
  cases event with
  | keyDown code => exact congrArg some hkeyboard
  | keyUp code => exact congrArg some hkeyboard
  | mouseMove m => exact congrArg some (input_mouseMove _ _ _)
  | mouseDown button => rfl
  | mouseUp button => rfl
  | wheel deltaY => exact congrArg (fun d => some (Input.wheel d)) (wheel_clamped deltaY)
  | changeResolution w h => exact input_changeResolution w h
  | changeFps fps => exact input_changeFps fps

theorem runGadget_session (event : Event) (events : List Event) :
    runGadget (session (event :: events)).2 =
      match asked (event :: events) with
      | none => runGadget (session events).2
      | some i =>
        let r := (runGadget (session events).2).1.onInput i
        (r.1,r.2 :: (runGadget (session events).2).2) := by
  have hasked := onEvent_asked event events
  rw [← hasked,session]
  cases (onEvent (session events).1 event).2 with
  | none => rfl
  | some frame =>
    simp only [Option.toList_some,List.singleton_append,Option.map_some,runGadget,Gadget.onFrame_eq]

/-- What the agent is to know about the mouse. -/
def pointer (events : List Event) : Pointer :=
  ⟨(session events).1.buttons,UInt16.ofNat (lastSent events).1,UInt16.ofNat (lastSent events).2⟩

theorem pointer_cons (event : Event) (events : List Event) :
    pointer (event :: events) = ((asked (event :: events)).map (pointer events).set).getD (pointer events) := by
  cases event with
  | keyDown code =>
    change Pointer.mk (onKeyDown (session events).1 code).buttons _ _ = _
    rw [onKeyDown_spec]
    rfl
  | keyUp code =>
    change Pointer.mk (onKeyUp (session events).1 code).buttons _ _ = _
    rw [onKeyUp_spec]
    rfl
  | changeResolution w h =>
    rw [asked]
    cases request? (.changeResolution w h) <;> rfl
  | changeFps fps =>
    rw [asked]
    cases request? (.changeFps fps) <;> rfl
  | _ => rfl

structure Follows (events : List Event) (g : Gadget) : Prop where
  kbd : g.kbd = true
  mouse : g.mouse = true
  pointer : BackEnds.gadgetPointer g = pointer events

theorem follows (events : List Event) : Follows events (runGadget (session events).2).1 := by
  induction events with
  | nil => exact ⟨rfl,rfl,rfl⟩
  | cons event events ih =>
    obtain ⟨ihkbd,ihmouse,ihpointer⟩ := ih
    have hpointer := pointer_cons event events
    rw [runGadget_session]
    cases hasked : asked (event :: events) with
    | none =>
      rw [hasked] at hpointer
      exact ⟨ihkbd,ihmouse,ihpointer.trans hpointer.symm⟩
    | some i =>
      obtain ⟨hkbd,hmouse,hset⟩ := BackEnds.gadget_onInput (runGadget (session events).2).1 i
      rw [hasked,Option.map_some,Option.getD_some,← ihpointer,← hset] at hpointer
      exact ⟨hkbd.trans ihkbd,hmouse.trans ihmouse,hpointer.symm⟩

theorem mouseReport_follows {events : List Event} {g : Gadget} (h : Follows events g) (wheel : UInt8) :
    g.mouseReport wheel.toInt8 =
      some ⟨.mouse,mouseReport (session events).1.buttons (lastSent events) wheel⟩ := by
  have hpointer := h.pointer
  rw [BackEnds.gadgetPointer,pointer,Pointer.mk.injEq] at hpointer
  obtain ⟨hbuttons,hx,hy⟩ := hpointer
  rw [Gadget.mouseReport,h.mouse,if_pos rfl,hbuttons,hx,hy,makeAbsMouseReport_ofNat]

def outcome (event : Event) (events : List Event) : Option (Effect Report) :=
  if isKey event then some { report := some ⟨.keyboard,keyboardReport (held (event :: events))⟩ }
  else match wheelByte? event with
    | some wheel => some { report := some ⟨.mouse,
        mouseReport (session (event :: events)).1.buttons (lastSent (event :: events)) wheel⟩ }
    | none => (request? event).map fun command => { command := some command }

theorem outputs_session (event : Event) (events : List Event) :
    (runGadget (session (event :: events)).2).2 =
      (outcome event events).toList ++ (runGadget (session events).2).2 := by
  have hkbd := (follows events).kbd
  have hafter := follows (event :: events)
  have hmouse := mouseReport_follows hafter
  have hkeyboard (bytes : List UInt8) :
      (runGadget (session events).2).1.kbdReport bytes = some ⟨.keyboard,bytes⟩ := if_pos hkbd
  have hcons {r r' : Option Report} (h : r = r') :
      (⟨r,none⟩ : Effect Report) :: (runGadget (session events).2).2 = ⟨r',none⟩ :: (runGadget (session events).2).2 := by
    rw [h]
  rw [runGadget_session] at hmouse ⊢
  cases event with
  | keyDown code => exact hcons (hkeyboard _)
  | keyUp code => exact hcons (hkeyboard _)
  | mouseMove m => exact hcons (hmouse 0)
  | mouseDown button => exact hcons (hmouse 0)
  | mouseUp button => exact hcons (hmouse 0)
  | wheel deltaY => exact hcons (hmouse _)
  | changeResolution w h =>
    change _ = ((request? (.changeResolution w h)).map _).toList ++ _
    rw [asked]
    cases request? (.changeResolution w h) <;> rfl
  | changeFps fps =>
    change _ = ((request? (.changeFps fps)).map _).toList ++ _
    rw [asked]
    cases request? (.changeFps fps) <;> rfl

theorem outcome_keyboard (event : Event) (events : List Event) :
    (outcome event events).toList.filterMap (reportOf .keyboard) =
      if isKey event then [keyboardReport (held (event :: events))] else [] := by
  cases event with
  | changeResolution w h =>
    change ((request? _).map _).toList.filterMap _ = _
    cases request? (.changeResolution w h) <;> rfl
  | changeFps fps =>
    change ((request? _).map _).toList.filterMap _ = _
    cases request? (.changeFps fps) <;> rfl
  | _ => rfl

theorem outcome_mouse (event : Event) (events : List Event) :
    (outcome event events).toList.filterMap (reportOf .mouse) =
      ((wheelByte? event).map (mouseReport (session (event :: events)).1.buttons
        (lastSent (event :: events)))).toList := by
  cases event with
  | changeResolution w h =>
    change ((request? _).map _).toList.filterMap _ = _
    cases request? (.changeResolution w h) <;> rfl
  | changeFps fps =>
    change ((request? _).map _).toList.filterMap _ = _
    cases request? (.changeFps fps) <;> rfl
  | _ => rfl

theorem outcome_command (event : Event) (events : List Event) :
    (outcome event events).toList.filterMap Effect.command = (request? event).toList := by
  cases event with
  | changeResolution w h =>
    change ((request? _).map _).toList.filterMap _ = _
    cases request? (.changeResolution w h) <;> rfl
  | changeFps fps =>
    change ((request? _).map _).toList.filterMap _ = _
    cases request? (.changeFps fps) <;> rfl
  | _ => rfl

/-- The agent does for the target what the events in the browser ask for. -/
theorem browser_to_usb (events : List Event) : Delivered events (runGadget (session events).2) := by
  refine ⟨?_,congrArg Pointer.buttons (follows events).pointer,?_,lastSent_le events,?_⟩
  · induction events with
    | nil => rfl
    | cons event events ih =>
      rw [outputs_session,List.filterMap_append,outcome_keyboard,List.any_cons]
      cases event with
      | keyDown code => rfl
      | keyUp code => rfl
      | _ => exact ih
  · induction events with
    | nil => rfl
    | cons event events ih => rw [outputs_session,List.filterMap_append,outcome_mouse,ih,mouseReports]
  · induction events with
    | nil => rfl
    | cons event events ih =>
      rw [outputs_session,List.filterMap_append,outcome_command,ih]
      cases hrequest : request? event with
      | none =>
        rw [List.filterMap_cons_none hrequest]
        rfl
      | some command =>
        rw [List.filterMap_cons_some hrequest]
        rfl

end Browser
end AnyKvm
