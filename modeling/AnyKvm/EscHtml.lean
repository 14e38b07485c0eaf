import AnyKvm.Substitution

/-! `app.js`: names and room ids of agents on their way into the page. Texts are UTF-16 code units. -/
namespace AnyKvm
namespace Browser

open Substitution

def unit (c : Char) : UInt16 := c.toNat.toUInt16

def units (text : List Char) : List UInt16 := text.map unit

def ampText : List UInt16 := units ['&','a','m','p',';']

def ltText : List UInt16 := units ['&','l','t',';']

def gtText : List UInt16 := units ['&','g','t',';']

def quotText : List UInt16 := units ['&','q','u','o','t',';']

/-- The four replacements, one after the other. -/
def escHtml (s : List UInt16) : List UInt16 :=
  let s := replaceAll (unit '&') ampText s
  let s := replaceAll (unit '<') ltText s
  let s := replaceAll (unit '>') gtText s
  replaceAll (unit '\x22') quotText s

def entities : Table UInt16 :=
  [(unit '&',ampText),(unit '<',ltText),(unit '>',gtText),(unit '\x22',quotText)]

theorem entities_inOrder : InOrder entities := by decide

theorem entities_marked : Marked (unit '&') entities where
  replaced := by decide
  head := by decide
  tail := by decide
  separate := by decide

theorem escHtml_eq (s : List UInt16) : escHtml s = atOnce entities s :=
  inTurn_eq_atOnce entities_inOrder s

/-- A name cannot leave the place that it is written to, and can be read back from there. -/
theorem escHtml_safe (s : List UInt16) :
    (unit '<' ∉ escHtml s ∧ unit '>' ∉ escHtml s ∧ unit '\x22' ∉ escHtml s) ∧
    (∀ front back, escHtml s = front ++ unit '&' :: back →
      ∃ text ∈ [ampText,ltText,gtText,quotText], text <+: unit '&' :: back) ∧
    decode entities (escHtml s) = s ∧
    escHtml s = s.flatMap (substitute entities) ∧
    ∀ t, escHtml (s ++ t) = escHtml s ++ escHtml t := by
  simp only [escHtml_eq]
  refine ⟨⟨?_,?_,?_⟩,?_,entities_marked.decode_atOnce s,rfl,atOnce_append entities s⟩
  · exact not_mem_atOnce (by decide) (by decide)
  · exact not_mem_atOnce (by decide) (by decide)
  · exact not_mem_atOnce (by decide) (by decide)
  · intro front back hsplit
    obtain ⟨entry,hentry,hbegins⟩ := entities_marked.exists_beginning front hsplit
    exact ⟨entry.2,List.mem_map_of_mem (f := Prod.snd) hentry,hbegins⟩

/-- Different names stay different. -/
theorem escHtml_injective {s t : List UInt16} (h : escHtml s = escHtml t) : s = t := by
  rw [escHtml_eq,escHtml_eq] at h
  rw [← entities_marked.decode_atOnce s,h,entities_marked.decode_atOnce t]

end Browser
end AnyKvm
