import Mathlib.Data.List.Basic

/-! What a host with the US layout reads from the reports of a boot keyboard: eight bytes, the modifiers, a reserved
byte and six keys. A key gives its character when it goes down. -/
namespace AnyKvm
namespace BootKeyboard

/-- The usages of the keys that have characters, with the character of each and the one that it has with Shift. -/
def usLayout : List (UInt8 × Char × Char) :=
  [(0x04,'a','A'),(0x05,'b','B'),(0x06,'c','C'),(0x07,'d','D'),(0x08,'e','E'),(0x09,'f','F'),(0x0A,'g','G'),
    (0x0B,'h','H'),(0x0C,'i','I'),(0x0D,'j','J'),(0x0E,'k','K'),(0x0F,'l','L'),(0x10,'m','M'),(0x11,'n','N'),
    (0x12,'o','O'),(0x13,'p','P'),(0x14,'q','Q'),(0x15,'r','R'),(0x16,'s','S'),(0x17,'t','T'),(0x18,'u','U'),
    (0x19,'v','V'),(0x1A,'w','W'),(0x1B,'x','X'),(0x1C,'y','Y'),(0x1D,'z','Z'),
    (0x1E,'1','!'),(0x1F,'2','@'),(0x20,'3','#'),(0x21,'4','$'),(0x22,'5','%'),(0x23,'6','^'),(0x24,'7','&'),
    (0x25,'8','*'),(0x26,'9','('),(0x27,'0',')'),(0x28,'\n','\n'),(0x2B,'\t','\t'),(0x2C,' ',' '),
    (0x2D,'-','_'),(0x2E,'=','+'),(0x2F,'[','\x7b'),(0x30,']','\x7d'),(0x31,'\\','|'),(0x33,';',':'),
    (0x34,'\x27','\x22'),(0x35,'\x60','~'),(0x36,',','<'),(0x37,'.','>'),(0x38,'/','?')]

/-- Either of the two Shift keys. -/
def shifted (modifiers : UInt8) : Bool := modifiers &&& 0x22 ≠ 0

def character (modifiers key : UInt8) : Option Char :=
  (usLayout.lookup key).map fun c => if shifted modifiers = true then c.2 else c.1

/-- The characters of the keys that go down with a report. -/
def pressed (before : List UInt8) : List UInt8 → List Char
  | modifiers :: _ :: keys =>
    (keys.filter fun key => key ≠ 0 ∧ key ∉ before).filterMap (character modifiers)
  | _ => []

/-- The keys that are down after a report. -/
def keysOf (report : List UInt8) : List UInt8 := report.drop 2

def characters : List UInt8 → List (List UInt8) → List Char
  | _, [] => []
  | before, report :: reports => pressed before report ++ characters (keysOf report) reports

def noKeys : List UInt8 := List.replicate 6 0

def single (modifiers key : UInt8) : List UInt8 := [modifiers,0,key,0,0,0,0,0]

def idle : List UInt8 := List.replicate 8 0

theorem pressed_single {modifiers key : UInt8} (hkey : key ≠ 0) :
    pressed noKeys (single modifiers key) = (character modifiers key).toList := by
  have hdown : [key,0,0,0,0,0].filter (fun key => key ≠ 0 ∧ key ∉ noKeys) = [key] := by
    simp [noKeys,hkey]
  rw [single,pressed,hdown]
  cases hcharacter : character modifiers key with
  | none => rw [List.filterMap_cons_none hcharacter,List.filterMap_nil,Option.toList_none]
  | some c => rw [List.filterMap_cons_some hcharacter,List.filterMap_nil,Option.toList_some]

theorem pressed_idle (before : List UInt8) : pressed before idle = [] := by
  simp [idle,pressed]

theorem characters_stroke {modifiers key : UInt8} (hkey : key ≠ 0) (reports : List (List UInt8)) :
    characters noKeys (single modifiers key :: idle :: reports) =
      (character modifiers key).toList ++ characters noKeys reports := by
  rw [characters,characters,pressed_single hkey,pressed_idle]
  rfl

end BootKeyboard
end AnyKvm
