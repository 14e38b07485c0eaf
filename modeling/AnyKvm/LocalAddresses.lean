import Mathlib.Data.List.DropRight
import Mathlib.Data.Finset.Card
import AnyKvm.IceCandidate

/-! `webrtc.rs`: the addresses of the machine, from the address that the system chooses for a
connection and from the text of `/proc/net/fib_trie`. -/
namespace AnyKvm
namespace Gathering

open Turn

/-- White space as Unicode has it. -/
def isWhiteSpace (c : Char) : Bool :=
  (0x9 ≤ c.toNat && c.toNat ≤ 0xD) || (0x2000 ≤ c.toNat && c.toNat ≤ 0x200A) ||
    [0x20,0x85,0xA0,0x1680,0x2028,0x2029,0x202F,0x205F,0x3000].contains c.toNat

def trim (line : List Char) : List Char := (line.dropWhile isWhiteSpace).rdropWhile isWhiteSpace

/-- A part of a dotted address: one to three digits, none of them a zero before others. -/
def parseOctet (text : List Char) : Option UInt32 :=
  if text = [] ∨ 3 < text.length ∨ text.any (fun c => !c.isDigit) = true then none
  else if text.head? = some '0' ∧ 1 < text.length then none
  else
    let n := Nat.ofDigitChars 10 text 0
    if n < 256 then some (UInt32.ofNat n) else none

def parseIpv4 (text : List Char) : Option UInt32 :=
  match text.splitOn '.' with
  | [a,b,c,d] => do
    some ((← parseOctet a) <<< 24 ||| (← parseOctet b) <<< 16 ||| (← parseOctet c) <<< 8 |||
      (← parseOctet d))
  | _ => none

/-- A carriage return at the end of a line goes with the white space. -/
def lines (content : List Char) : List (List Char) := content.splitOn '\n'

/-- What a line of the table is. -/
inductive TrieLine
  | node (ip : Option UInt32)
  | hostLocal
  | other
  deriving DecidableEq, Repr

def classify (line : List Char) : TrieLine :=
  let trimmed := trim line
  match "|-- ".toList.isPrefixOf? trimmed with
  | some ipStr => .node (parseIpv4 ipStr)
  | none => if "/32 host LOCAL".toList.isPrefixOf trimmed = true then .hostLocal else .other

structure Interfaces where
  chosen : Option UInt32
  fibTrie : Option (List Char)

def isForeign (ip : IpAddr) : Bool := !ip.isLoopback && !ip.isUnspecified

structure Scan where
  lastIp : Option UInt32
  ips : List IpAddr

def pushIp (ips : List IpAddr) (ip : IpAddr) : List IpAddr :=
  if isForeign ip = true ∧ ip ∉ ips then ips ++ [ip] else ips

def onLine (s : Scan) (line : List Char) : Scan :=
  match classify line with
  | .node ip => { s with lastIp := ip }
  | .hostLocal => match s.lastIp with
    | some ip => ⟨none,pushIp s.ips (.v4 ip)⟩
    | none => s
  | .other => s

def getLocalIps (ifs : Interfaces) : List IpAddr :=
  let ips : List IpAddr := match ifs.chosen with
    | some ip => if isForeign (.v4 ip) = true then [.v4 ip] else []
    | none => []
  match ifs.fibTrie with
  | some content => ((lines content).foldl onLine ⟨none,ips⟩).ips
  | none => ips

def listed : Option UInt32 → List (List Char) → List UInt32
  | _,[] => []
  | lastIp,line :: rest => match classify line with
    | .node ip => listed ip rest
    | .hostLocal => lastIp.toList ++ listed none rest
    | .other => listed lastIp rest

def told (ifs : Interfaces) : List IpAddr :=
  (ifs.chosen.toList ++ (ifs.fibTrie.elim [] fun content => listed none (lines content))).map .v4

/-- The addresses of the machine that other machines could use. -/
def localAddresses (ifs : Interfaces) : Finset IpAddr := ((told ifs).filter isForeign).toFinset

theorem mem_pushIp {ips : List IpAddr} {ip a : IpAddr} :
    a ∈ pushIp ips ip ↔ a ∈ ips ∨ a = ip ∧ isForeign ip = true := by
  unfold pushIp
  by_cases hforeign : isForeign ip = true
  · by_cases hmem : ip ∈ ips
    · rw [if_neg fun h => h.2 hmem]
      exact ⟨Or.inl,fun h => h.elim id fun h => h.1 ▸ hmem⟩
    · rw [if_pos ⟨hforeign,hmem⟩,List.mem_append,List.mem_singleton]
      simp [hforeign]
  · rw [if_neg fun h => hforeign h.1]
    simp [hforeign]

theorem nodup_pushIp {ips : List IpAddr} (h : ips.Nodup) (ip : IpAddr) : (pushIp ips ip).Nodup := by
  unfold pushIp
  split
  · rename_i hnew
    exact List.nodup_append.mpr ⟨h,List.nodup_singleton ip,fun a ha b hb hab =>
      hnew.2 (List.mem_singleton.mp hb ▸ hab ▸ ha)⟩
  · exact h

theorem foldl_onLine (rest : List (List Char)) (s : Scan) :
    (rest.foldl onLine s).ips = ((listed s.lastIp rest).map IpAddr.v4).foldl pushIp s.ips := by
  induction rest generalizing s with
  | nil => rfl
  | cons line rest ih =>
    rw [List.foldl_cons,ih,listed,onLine]
    cases classify line with
    | node ip => rfl
    | other => rfl
    | hostLocal => cases hlast : s.lastIp <;> simp [hlast]

theorem getLocalIps_eq (ifs : Interfaces) : getLocalIps ifs = (told ifs).foldl pushIp [] := by
  have hchosen : (ifs.chosen.toList.map IpAddr.v4).foldl pushIp [] = match ifs.chosen with
      | some ip => if isForeign (.v4 ip) = true then [.v4 ip] else []
      | none => [] := by
    cases ifs.chosen with
    | none => rfl
    | some ip => simp [pushIp]
  unfold getLocalIps told
  rw [List.map_append,List.foldl_append,hchosen]
  cases ifs.fibTrie with
  | none => rfl
  | some content => exact foldl_onLine _ _

theorem mem_foldl_pushIp {ips more : List IpAddr} {a : IpAddr} :
    a ∈ more.foldl pushIp ips ↔ a ∈ ips ∨ a ∈ more.filter isForeign := by
  induction more generalizing ips with
  | nil => simp
  | cons ip more ih =>
    rw [List.foldl_cons,ih,mem_pushIp,List.mem_filter,List.mem_filter,List.mem_cons]
    by_cases ha : a = ip
    · subst ha
      simp only [true_and,true_or]
      tauto
    · simp only [ha,false_and,or_false,false_or]

theorem nodup_foldl_pushIp {ips : List IpAddr} (h : ips.Nodup) (more : List IpAddr) :
    (more.foldl pushIp ips).Nodup := by
  induction more generalizing ips with
  | nil => exact h
  | cons ip more ih => exact ih (nodup_pushIp h ip)

theorem nodup_getLocalIps (ifs : Interfaces) : (getLocalIps ifs).Nodup := by
  rw [getLocalIps_eq]
  exact nodup_foldl_pushIp List.nodup_nil _

/-- `get_local_ips` returns the addresses of the machine. -/
theorem toFinset_getLocalIps (ifs : Interfaces) : (getLocalIps ifs).toFinset = localAddresses ifs := by
  ext ip
  rw [List.mem_toFinset,getLocalIps_eq,mem_foldl_pushIp,localAddresses,List.mem_toFinset]
  simp

theorem mem_getLocalIps {ifs : Interfaces} {ip : IpAddr} :
    ip ∈ getLocalIps ifs ↔ ip ∈ localAddresses ifs := by
  rw [← toFinset_getLocalIps,List.mem_toFinset]

theorem length_getLocalIps (ifs : Interfaces) : (getLocalIps ifs).length = (localAddresses ifs).card := by
  rw [← toFinset_getLocalIps,List.toFinset_card_of_nodup (nodup_getLocalIps ifs)]

theorem isForeign_of_mem {ifs : Interfaces} {ip : IpAddr} (h : ip ∈ localAddresses ifs) :
    ip.isLoopback = false ∧ ip.isUnspecified = false := by
  have hforeign := (List.mem_filter.mp (List.mem_toFinset.mp h)).2
  simpa [isForeign] using hforeign

theorem isV6_of_mem {ifs : Interfaces} {ip : IpAddr} (h : ip ∈ localAddresses ifs) :
    ip.isV6 = false := by
  have htold := (List.mem_filter.mp (List.mem_toFinset.mp h)).1
  obtain ⟨bits,-,rfl⟩ := List.mem_map.mp htold
  rfl

end Gathering
end AnyKvm
