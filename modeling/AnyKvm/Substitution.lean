import Mathlib.Data.List.Basic

/-! Escaping by a table of single symbols and the texts that stand for them: replacing one symbol after the other
against replacing all of them at once, and reading the result back. -/
namespace AnyKvm
namespace Substitution

variable {α : Type*} [DecidableEq α]

abbrev Table (α : Type*) := List (α × List α)

/-- Every occurrence of one symbol gives way to a text. -/
def replaceAll (a : α) (replacement text : List α) : List α :=
  text.flatMap fun c => if c = a then replacement else [c]

/-- One entry of the table after the other. -/
def inTurn (table : Table α) (text : List α) : List α :=
  table.foldl (fun text entry => replaceAll entry.1 entry.2 text) text

def substitute (table : Table α) (c : α) : List α :=
  match table.find? fun entry => entry.1 = c with
  | some entry => entry.2
  | none => [c]

/-- All entries at once. -/
def atOnce (table : Table α) (text : List α) : List α := text.flatMap (substitute table)

/-- From left to right: a text of the table is its symbol, and every other symbol is itself. -/
def decode (table : Table α) : List α → List α
  | [] => []
  | c :: text =>
    match table.find? fun entry => entry.2 <+: c :: text with
    | some entry => entry.1 :: decode table (text.drop (entry.2.length - 1))
    | none => c :: decode table text
  termination_by text => text.length

/-- No entry touches what an earlier one has written. -/
def InOrder (table : Table α) : Prop := table.Pairwise fun entry later => later.1 ∉ entry.2

instance (table : Table α) : Decidable (InOrder table) :=
  inferInstanceAs (Decidable (table.Pairwise fun entry later => later.1 ∉ entry.2))

/-- A table whose texts begin with a mark that is itself replaced, and stand nowhere within each other. -/
structure Marked (mark : α) (table : Table α) : Prop where
  replaced : mark ∈ table.map Prod.fst
  head : ∀ entry ∈ table, entry.2.head? = some mark
  tail : ∀ entry ∈ table, mark ∉ entry.2.tail
  separate : ∀ entry ∈ table, ∀ other ∈ table, entry.2 <+: other.2 → entry = other

section InTurn
variable {table : Table α} {text : List α} {c : α}

theorem substitute_of_not_mem (h : c ∉ table.map Prod.fst) : substitute table c = [c] := by
  have hnone : table.find? (fun entry => entry.1 = c) = none := by
    refine List.find?_eq_none.mpr fun entry hentry hkey => h ?_
    exact List.mem_map.mpr ⟨entry,hentry,of_decide_eq_true hkey⟩
  rw [substitute,hnone]

theorem substitute_cases (table : Table α) (c : α) :
    (∃ entry ∈ table, entry.1 = c ∧ substitute table c = entry.2) ∨
      c ∉ table.map Prod.fst ∧ substitute table c = [c] := by
  cases hfind : table.find? fun entry => entry.1 = c with
  | some entry =>
    refine .inl ⟨entry,List.mem_of_find?_eq_some hfind,?_,?_⟩
    · simpa using List.find?_some hfind
    · rw [substitute,hfind]
  | none =>
    have hnot : c ∉ table.map Prod.fst := by
      intro hmem
      obtain ⟨entry,hentry,hkey⟩ := List.mem_map.mp hmem
      exact List.find?_eq_none.mp hfind entry hentry (decide_eq_true hkey)
    exact .inr ⟨hnot,substitute_of_not_mem hnot⟩

theorem substitute_cons (entry : α × List α) (table : Table α) (c : α) :
    substitute (entry :: table) c = if c = entry.1 then entry.2 else substitute table c := by
  unfold substitute
  by_cases h : c = entry.1
  · simp [h]
  · simp [h,Ne.symm h]

theorem atOnce_of_forall_not_mem (h : ∀ c ∈ text, c ∉ table.map Prod.fst) : atOnce table text = text := by
  unfold atOnce
  rw [List.flatMap_congr fun c hc => substitute_of_not_mem (h c hc)]
  exact List.flatMap_singleton' text

/-- Where no entry touches what an earlier one has written, the order does not show. -/
theorem inTurn_eq_atOnce (h : InOrder table) (text : List α) : inTurn table text = atOnce table text := by
  induction table generalizing text with
  | nil => exact (atOnce_of_forall_not_mem fun _ _ => List.not_mem_nil).symm
  | cons entry table ih =>
    obtain ⟨hentry,hrest⟩ := List.pairwise_cons.mp h
    change inTurn table (replaceAll entry.1 entry.2 text) = _
    rw [ih hrest,atOnce,replaceAll,List.flatMap_assoc]
    refine List.flatMap_congr fun c _ => ?_
    rw [substitute_cons]
    split
    · refine atOnce_of_forall_not_mem fun d hd hmem => ?_
      obtain ⟨later,hlater,rfl⟩ := List.mem_map.mp hmem
      exact hentry later hlater hd
    · exact List.flatMap_singleton _ _

theorem atOnce_append (table : Table α) (text text' : List α) :
    atOnce table (text ++ text') = atOnce table text ++ atOnce table text' := List.flatMap_append

/-- A symbol that is replaced and occurs in no text of the table is gone. -/
theorem not_mem_atOnce (hc : c ∈ table.map Prod.fst) (htexts : ∀ entry ∈ table, c ∉ entry.2) :
    c ∉ atOnce table text := by
  intro hmem
  obtain ⟨d,-,hd⟩ := List.mem_flatMap.mp hmem
  obtain ⟨entry,hentry,-,heq⟩ | ⟨hnot,heq⟩ := substitute_cases table d
  · exact htexts entry hentry (heq ▸ hd)
  · rw [heq,List.mem_singleton] at hd
    exact hnot (hd ▸ hc)

end InTurn

namespace Marked
variable {mark : α} {table : Table α} (h : Marked mark table)
include h

omit [DecidableEq α] in
theorem eq_cons {entry : α × List α} (hentry : entry ∈ table) : entry.2 = mark :: entry.2.tail :=
  List.eq_cons_of_mem_head? (h.head entry hentry)

omit [DecidableEq α] in
theorem ne_mark {c : α} (hc : c ∉ table.map Prod.fst) : c ≠ mark := fun heq => hc (heq ▸ h.replaced)

theorem find?_append {entry : α × List α} (hentry : entry ∈ table) (rest : List α) :
    table.find? (fun other => other.2 <+: entry.2 ++ rest) = some entry := by
  obtain ⟨found,hfound⟩ : ∃ found, table.find? (fun other => other.2 <+: entry.2 ++ rest) = some found := by
    refine Option.isSome_iff_exists.mp (List.find?_isSome.mpr ⟨entry,hentry,decide_eq_true ?_⟩)
    exact List.prefix_append entry.2 rest
  have hmem := List.mem_of_find?_eq_some hfound
  have hbegins : found.2 <+: entry.2 ++ rest := by simpa using List.find?_some hfound
  rw [hfound]
  rcases List.prefix_or_prefix_of_prefix hbegins (List.prefix_append entry.2 rest) with hle | hle
  · rw [h.separate found hmem entry hentry hle]
  · rw [h.separate entry hentry found hmem hle]

theorem find?_cons {c : α} (hc : c ≠ mark) (rest : List α) :
    table.find? (fun other => other.2 <+: c :: rest) = none := by
  refine List.find?_eq_none.mpr fun other hother hbegins => hc ?_
  have hcons := of_decide_eq_true hbegins
  rw [h.eq_cons hother,List.cons_prefix_cons] at hcons
  exact hcons.1.symm

theorem decode_atOnce (text : List α) : decode table (atOnce table text) = text := by
  induction text with
  | nil => exact decode.eq_1 table
  | cons c text ih =>
    change decode table (substitute table c ++ atOnce table text) = c :: text
    obtain ⟨entry,hentry,hkey,heq⟩ | ⟨hnot,heq⟩ := substitute_cases table c
    · have hfind := h.find?_append hentry (atOnce table text)
      rw [heq]
      rw [h.eq_cons hentry,List.cons_append] at hfind ⊢
      rw [decode,hfind]
      dsimp only
      rw [h.eq_cons hentry,List.length_cons,Nat.add_sub_cancel,List.tail_cons,List.drop_left,ih,hkey]
    · rw [heq,List.singleton_append,decode,h.find?_cons (h.ne_mark hnot)]
      exact congrArg (c :: ·) ih

omit [DecidableEq α] in
/-- In a text of the table, the mark is only at the beginning. -/
theorem eq_nil_of_split {entry : α × List α} (hentry : entry ∈ table) {front back : List α}
    (hsplit : entry.2 = front ++ mark :: back) : front = [] := by
  cases front with
  | nil => rfl
  | cons a front =>
    refine absurd ?_ (h.tail entry hentry)
    rw [hsplit,List.cons_append,List.tail_cons]
    exact List.mem_append_right front List.mem_cons_self

/-- Every mark in the result begins a text of the table. -/
theorem exists_beginning {text : List α} (front : List α) {back : List α}
    (hsplit : atOnce table text = front ++ mark :: back) :
    ∃ entry ∈ table, entry.2 <+: mark :: back := by
  induction text generalizing front with
  | nil => simp [atOnce] at hsplit
  | cons c text ih =>
    change substitute table c ++ atOnce table text = front ++ mark :: back at hsplit
    obtain ⟨front',-,hrest⟩ | ⟨cut,hcut,hback⟩ := List.append_eq_append_iff.mp hsplit
    · exact ih front' hrest
    · cases cut with
      | nil => exact ih [] hback.symm
      | cons m cut =>
        obtain ⟨rfl,rfl⟩ := List.cons.inj hback
        obtain ⟨entry,hentry,-,heq⟩ | ⟨hnot,heq⟩ := substitute_cases table c
        · rw [heq] at hcut
          have hfront := h.eq_nil_of_split hentry hcut
          rw [hfront,List.nil_append] at hcut
          exact ⟨entry,hentry,hcut ▸ List.prefix_append (mark :: cut) _⟩
        · have hmem : mark ∈ [c] := heq ▸ hcut ▸ List.mem_append_right front List.mem_cons_self
          exact absurd (List.mem_singleton.mp hmem).symm (h.ne_mark hnot)

end Marked
end Substitution
end AnyKvm
