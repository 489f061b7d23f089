import Mathlib.Data.List.TakeWhile
import Ibdxnet.Lib.LittleEndian
import Ibdxnet.Sys.StringUtils

/-!
# IPv4 addresses as strings

`AddressIPV4` keeps an address as a number and as a string, and is constructed
from either.  `inet_pton` and `stoi` are the library's.

    an address printed and read is the same address      (ofString_getAddressStr)
    a string that is accepted is the one printed for its
      address                                            (addressStr_of_ofString)
-/

namespace Ibdxnet.Sys

/-- What constructing an address throws. -/
inductive AddressException
  | systemException (reason : String)
  | stdException (e : StdException)
  deriving DecidableEq, Repr

/-- `c_str()`: a C function reads up to the first NUL. -/
def cStr (s : List Char) : List Char := s.takeWhile (· ≠ Char.ofNat 0)

/-- `std::to_string` of an unsigned number -/
def toDecimal (n : Nat) : List Char := Nat.toDigits 10 n

/-- A host address, in network byte order. -/
structure InAddr where
  b₀ : UInt8
  b₁ : UInt8
  b₂ : UInt8
  b₃ : UInt8
  deriving DecidableEq, Repr

/-- `ntohl` -/
def InAddr.ntohl (addr : InAddr) : UInt32 :=
  LittleEndian.word32 addr.b₃ addr.b₂ addr.b₁ addr.b₀

/-- A part of a dotted address: digits with no leading zero, up to 255. -/
def octet (s : List Char) : Option UInt8 :=
  if s ≠ [] ∧ s.all Char.isDigit ∧ (s = ['0'] ∨ s.head? ≠ some '0') ∧
      Nat.ofDigitChars 10 s 0 ≤ 255 then
    some (UInt8.ofNat (Nat.ofDigitChars 10 s 0))
  else
    none

def inetPton (src : List Char) : Option InAddr :=
  match src.splitOn '.' with
  | [s₀, s₁, s₂, s₃] => do
    let b₀ ← octet s₀
    let b₁ ← octet s₁
    let b₂ ← octet s₂
    let b₃ ← octet s₃
    return { b₀, b₁, b₂, b₃ }
  | _ => none

def inetNtoa (addr : InAddr) : List Char :=
  ['.'].intercalate [toDecimal addr.b₀.toNat, toDecimal addr.b₁.toNat, toDecimal addr.b₂.toNat,
    toDecimal addr.b₃.toNat]

/-- `isspace` of the C locale -/
def isSpace (c : Char) : Bool := c = ' ' ∨ (9 ≤ c.toNat ∧ c.toNat ≤ 13)

/-- An optional sign. -/
def sign : List Char → Bool × List Char
  | '-' :: s => (true, s)
  | '+' :: s => (false, s)
  | s => (false, s)

/-- `std::stoi`, which leaves the rest after the digits unread. -/
def stoi (s : List Char) : Except StdException Int :=
  let (negative, s) := sign ((cStr s).dropWhile isSpace)
  let digits := s.takeWhile Char.isDigit
  let magnitude : Int := Nat.ofDigitChars 10 digits 0
  let value := if negative then -magnitude else magnitude
  if digits = [] then
    .error .invalidArgument
  else if value < -2 ^ 31 ∨ 2 ^ 31 ≤ value then
    .error .outOfRange
  else
    .ok value

structure AddressIPV4 where
  address : UInt32
  port : UInt16
  addressStr : List Char
  deriving DecidableEq, Repr

namespace AddressIPV4

def invalidAddress : UInt32 := 0xFFFFFFFF

def invalidPort : UInt16 := 0xFFFF

/-- `__ToString` -/
def toAddressStr (address : UInt32) : List Char :=
  toDecimal ((address >>> 24) &&& 0xFF).toNat ++ ['.'] ++
    toDecimal ((address >>> 16) &&& 0xFF).toNat ++ ['.'] ++
    toDecimal ((address >>> 8) &&& 0xFF).toNat ++ ['.'] ++ toDecimal (address &&& 0xFF).toNat

def new (address : UInt32) (port : UInt16) : AddressIPV4 where
  address := address
  port := port
  addressStr := toAddressStr address

/-- The constructor of a string, `__ToAddressAndPort`.  A port that is missing is
0, not `INVALID_PORT`. -/
def ofString (address : List Char) : Except AddressException AddressIPV4 :=
  match StringUtils.split address [':'] true with
  | .error e => .error (.stdException e)
  | .ok [] => .ok { address := invalidAddress, port := invalidPort, addressStr := [] }
  | .ok (host :: tokens) =>
    if (host :: tokens).length > 2 then
      .error (.systemException "Invalid address format: %s")
    else
      match inetPton (cStr host) with
      | none => .error (.systemException "Invalid address format: %s")
      | some addr =>
        match tokens with
        | [] => .ok { address := addr.ntohl, port := 0, addressStr := host }
        | port :: _ =>
          match stoi port with
          | .error e => .error (.stdException e)
          | .ok value =>
            .ok { address := addr.ntohl, port := UInt16.ofInt value, addressStr := host }

def getAddressStr (a : AddressIPV4) (withPort : Bool) : List Char :=
  if withPort then a.addressStr ++ [':'] ++ toDecimal a.port.toNat else a.addressStr

end AddressIPV4

/-! ## Decimal numbers -/

theorem isDigit_of_mem_toDecimal {c : Char} {n : Nat} (h : c ∈ toDecimal n) : c.isDigit = true :=
  Nat.isDigit_of_mem_toDigits (by decide) (by decide) h

theorem not_mem_toDecimal {c : Char} (hc : c.isDigit = false) (n : Nat) : c ∉ toDecimal n := by
  intro hmem
  rw [isDigit_of_mem_toDecimal hmem] at hc
  cases hc

/-- A digit is the one printed for its value. -/
theorem toDecimal_digit {c : Char} (hc : c.isDigit = true) :
    toDecimal (c.toNat - '0'.toNat) = [c] := by
  have hrange : '0'.toNat ≤ c.toNat ∧ c.toNat ≤ '9'.toNat := Char.isDigit_iff_toNat.mp hc
  have hlower : 48 ≤ c.toNat := hrange.1
  have hupper : c.toNat ≤ 57 := hrange.2
  show Nat.toDigits 10 (c.toNat - 48) = [c]
  rw [Nat.toDigits_of_lt_base (show c.toNat - 48 < 10 by omega)]
  obtain ⟨k, hk, hkc⟩ : ∃ k, k < 10 ∧ c.toNat = k + 48 := ⟨c.toNat - 48, by omega, by omega⟩
  have hchar : ∀ k, k < 10 → (Nat.digitChar k).toNat = k + 48 := by decide
  rw [hkc, List.cons.injEq]
  refine ⟨Char.toNat_inj.mp ?_, rfl⟩
  rw [Nat.add_sub_cancel, hchar k hk, hkc]

/-- Digits after a number that is not zero are appended to those printed. -/
theorem toDecimal_append {s : List Char} (hdigits : s.all Char.isDigit = true) {n : Nat}
    (hn : 0 < n) : toDecimal n ++ s = toDecimal (Nat.ofDigitChars 10 s n) := by
  induction s generalizing n with
  | nil => rw [List.append_nil, Nat.ofDigitChars_nil]
  | cons c cs ih =>
    rw [List.all_cons, Bool.and_eq_true] at hdigits
    have hdigit : c.toNat - '0'.toNat < 10 := by
      have hupper : c.toNat ≤ 57 := (Char.isDigit_iff_toNat.mp hdigits.1).2
      show c.toNat - 48 < 10
      omega
    have hone : toDecimal n ++ [c] = toDecimal (10 * n + (c.toNat - '0'.toNat)) := by
      rw [← toDecimal_digit hdigits.1]
      exact Nat.toDigits_append_toDigits (by decide) hn hdigit
    rw [Nat.ofDigitChars_cons, ← ih hdigits.2 (by omega), ← hone, List.append_assoc]
    rfl

/-- Digits without a leading zero are the ones printed for their value. -/
theorem toDecimal_ofDigitChars {s : List Char} (hne : s ≠ []) (hdigits : s.all Char.isDigit = true)
    (hzero : s = ['0'] ∨ s.head? ≠ some '0') : toDecimal (Nat.ofDigitChars 10 s 0) = s := by
  rcases hzero with rfl | hzero
  · rfl
  · cases s with
    | nil => exact absurd rfl hne
    | cons c cs =>
      rw [List.all_cons, Bool.and_eq_true] at hdigits
      have hpos : 0 < 10 * 0 + (c.toNat - '0'.toNat) := by
        have hlower : 48 ≤ c.toNat := (Char.isDigit_iff_toNat.mp hdigits.1).1
        have hne0 : c.toNat ≠ 48 := by
          intro h
          apply hzero
          rw [List.head?_cons, show c = '0' from Char.toNat_inj.mp h]
        show 0 < 10 * 0 + (c.toNat - 48)
        omega
      rw [Nat.ofDigitChars_cons, ← toDecimal_append hdigits.2 hpos, Nat.mul_zero, Nat.zero_add,
        toDecimal_digit hdigits.1]
      rfl

theorem ofDigitChars_toDecimal (n : Nat) : Nat.ofDigitChars 10 (toDecimal n) 0 = n :=
  Nat.ofDigitChars_ten_toDigits

theorem head?_toDecimal (n : Nat) : toDecimal n = ['0'] ∨ (toDecimal n).head? ≠ some '0' := by
  rcases Nat.eq_zero_or_pos n with rfl | hn
  · exact Or.inl rfl
  · right
    induction n using Nat.strongRecOn with
    | ind n ih =>
      by_cases hlt : n < 10
      · rw [toDecimal, Nat.toDigits_of_lt_base hlt, List.head?_cons]
        intro h
        rw [Option.some.injEq, Nat.digitChar_eq_zero] at h
        omega
      · have hdiv : 0 < n / 10 := by omega
        have hrec := ih (n / 10) (by omega) hdiv
        rw [toDecimal, Nat.toDigits_of_base_le (by decide) (by omega)]
        rw [List.head?_append_of_ne_nil _ Nat.toDigits_ne_nil]
        exact hrec

/-! ## Dotted addresses -/

theorem octet_toDecimal (b : UInt8) : octet (toDecimal b.toNat) = some b := by
  have hb : b.toNat < 256 := b.toNat_lt
  rw [octet, if_pos, ofDigitChars_toDecimal]
  · rw [UInt8.ofNat_toNat]
  · refine ⟨Nat.toDigits_ne_nil, ?_, head?_toDecimal _, ?_⟩
    · exact List.all_eq_true.mpr fun c hc => isDigit_of_mem_toDecimal hc
    · rw [ofDigitChars_toDecimal]
      omega

/-- A part that is accepted is the one printed for the byte. -/
theorem eq_of_octet {s : List Char} {b : UInt8} (h : octet s = some b) :
    s = toDecimal b.toNat := by
  rw [octet] at h
  split at h
  · next hs =>
    obtain ⟨hne, hdigits, hzero, hle⟩ := hs
    obtain rfl := Option.some.inj h
    rw [UInt8.toNat_ofNat_of_lt' (show _ < 256 by omega), toDecimal_ofDigitChars hne hdigits hzero]
  · cases h

theorem inetPton_inetNtoa (addr : InAddr) : inetPton (inetNtoa addr) = some addr := by
  rw [inetPton, inetNtoa, List.splitOn_intercalate '.' ?_ (List.cons_ne_nil _ _)]
  · simp only [octet_toDecimal]
    rfl
  · intro s hs
    simp only [List.mem_cons, List.not_mem_nil, or_false] at hs
    rcases hs with rfl | rfl | rfl | rfl <;> exact not_mem_toDecimal (by decide) _

/-- The only string accepted for an address is the one printed for it. -/
theorem eq_of_inetPton {src : List Char} {addr : InAddr} (h : inetPton src = some addr) :
    src = inetNtoa addr := by
  rw [inetPton] at h
  split at h
  · next s₀ s₁ s₂ s₃ hsplit =>
    simp only [Option.bind_eq_bind, Option.bind_eq_some_iff, Option.pure_def] at h
    obtain ⟨b₀, h₀, b₁, h₁, b₂, h₂, b₃, h₃, haddr⟩ := h
    obtain rfl := Option.some.inj haddr
    rw [inetNtoa, ← eq_of_octet h₀, ← eq_of_octet h₁, ← eq_of_octet h₂, ← eq_of_octet h₃,
      ← hsplit, List.intercalate_splitOn]
  · cases h

/-- The number of an address, byte by byte. -/
theorem InAddr.toNat_ntohl (addr : InAddr) :
    addr.ntohl.toNat = addr.b₃.toNat + addr.b₂.toNat * 2 ^ 8 + addr.b₁.toNat * 2 ^ 16 +
      addr.b₀.toNat * 2 ^ 24 := by
  have h₀ := addr.b₀.toNat_lt
  have h₁ := addr.b₁.toNat_lt
  have h₂ := addr.b₂.toNat_lt
  have h₃ := addr.b₃.toNat_lt
  simp only [ntohl, LittleEndian.word32, UInt32.toNat_or, UInt8.toNat_toUInt32,
    UInt32.toNat_shiftLeft]
  show addr.b₃.toNat ||| addr.b₂.toNat <<< 8 % 2 ^ 32 ||| addr.b₁.toNat <<< 16 % 2 ^ 32 |||
    addr.b₀.toNat <<< 24 % 2 ^ 32 = _
  have hfits : ∀ b k, b < 2 ^ 8 → k ≤ 24 → b <<< k % 2 ^ 32 = b <<< k := by
    intro b k hb hk
    apply Nat.mod_eq_of_lt
    rw [Nat.shiftLeft_eq]
    calc b * 2 ^ k < 2 ^ 8 * 2 ^ k := Nat.mul_lt_mul_of_pos_right hb (Nat.two_pow_pos k)
      _ ≤ 2 ^ 8 * 2 ^ 24 := Nat.mul_le_mul_left _ (Nat.pow_le_pow_right (by decide) hk)
      _ = 2 ^ 32 := by decide
  rw [hfits _ 8 h₂ (by decide), hfits _ 16 h₁ (by decide), hfits _ 24 h₀ (by decide),
    LittleEndian.or_shiftLeft (k := 8) (by omega), LittleEndian.or_shiftLeft (k := 16) (by omega),
    LittleEndian.or_shiftLeft (k := 24) (by omega)]

theorem toNat_byte (address : UInt32) (k : UInt32) (hk : k.toNat < 32) :
    ((address >>> k) &&& 0xFF).toNat = address.toNat / 2 ^ k.toNat % 2 ^ 8 := by
  rw [UInt32.toNat_and, UInt32.toNat_shiftRight, Nat.mod_eq_of_lt hk, Nat.shiftRight_eq_div_pow]
  exact Nat.and_two_pow_sub_one_eq_mod _ 8

/-- The bytes are shifted out again. -/
theorem InAddr.bytes_ntohl (addr : InAddr) :
    addr.ntohl.toNat / 2 ^ 24 % 2 ^ 8 = addr.b₀.toNat ∧
      addr.ntohl.toNat / 2 ^ 16 % 2 ^ 8 = addr.b₁.toNat ∧
      addr.ntohl.toNat / 2 ^ 8 % 2 ^ 8 = addr.b₂.toNat ∧
      addr.ntohl.toNat % 2 ^ 8 = addr.b₃.toNat := by
  have h₀ := addr.b₀.toNat_lt
  have h₁ := addr.b₁.toNat_lt
  have h₂ := addr.b₂.toNat_lt
  have h₃ := addr.b₃.toNat_lt
  rw [addr.toNat_ntohl]
  omega

namespace AddressIPV4

/-- What `__ToString` prints is what `inet_ntoa` prints. -/
theorem toAddressStr_ntohl (addr : InAddr) : toAddressStr addr.ntohl = inetNtoa addr := by
  obtain ⟨h₀, h₁, h₂, h₃⟩ := addr.bytes_ntohl
  have hlow : (addr.ntohl &&& 0xFF).toNat = addr.ntohl.toNat % 2 ^ 8 := by
    rw [UInt32.toNat_and]
    exact Nat.and_two_pow_sub_one_eq_mod _ 8
  have hhigh : ((addr.ntohl >>> 24) &&& 0xFF).toNat = addr.b₀.toNat :=
    (toNat_byte _ 24 (by decide)).trans h₀
  have hmiddle : ((addr.ntohl >>> 16) &&& 0xFF).toNat = addr.b₁.toNat :=
    (toNat_byte _ 16 (by decide)).trans h₁
  have hlower : ((addr.ntohl >>> 8) &&& 0xFF).toNat = addr.b₂.toNat :=
    (toNat_byte _ 8 (by decide)).trans h₂
  rw [toAddressStr, hhigh, hmiddle, hlower, hlow, h₃]
  simp [inetNtoa]

/-- The bytes of an address. -/
def inAddr (address : UInt32) : InAddr where
  b₀ := (address >>> 24).toUInt8
  b₁ := (address >>> 16).toUInt8
  b₂ := (address >>> 8).toUInt8
  b₃ := address.toUInt8

theorem ntohl_inAddr (address : UInt32) : (inAddr address).ntohl = address :=
  LittleEndian.word32_bytes32 address

theorem toAddressStr_eq (address : UInt32) : toAddressStr address = inetNtoa (inAddr address) := by
  rw [← toAddressStr_ntohl, ntohl_inAddr]

/-! ## Strings and addresses -/

theorem mem_inetNtoa {addr : InAddr} {c : Char} (h : c ∈ inetNtoa addr) :
    c.isDigit = true ∨ c = '.' := by
  simp only [inetNtoa, List.intercalate_cons_cons, List.intercalate_singleton, List.mem_append,
    List.mem_singleton] at h
  rcases h with (h | h) | (h | h) | (h | h) | h
  · exact Or.inl (isDigit_of_mem_toDecimal h)
  · exact Or.inr h
  · exact Or.inl (isDigit_of_mem_toDecimal h)
  · exact Or.inr h
  · exact Or.inl (isDigit_of_mem_toDecimal h)
  · exact Or.inr h
  · exact Or.inl (isDigit_of_mem_toDecimal h)

theorem cStr_eq_self {s : List Char} (h : Char.ofNat 0 ∉ s) : cStr s = s := by
  apply List.takeWhile_eq_self_iff.mpr
  intro c hc
  rw [decide_eq_true_eq]
  rintro rfl
  exact h hc

theorem not_mem_inetNtoa {addr : InAddr} {c : Char} (hc : c.isDigit = false) (hdot : c ≠ '.') :
    c ∉ inetNtoa addr := by
  intro hmem
  rcases mem_inetNtoa hmem with h | h
  · rw [hc] at h
    cases h
  · exact hdot h

/-- A number that fits a port is read as it was printed. -/
theorem stoi_toDecimal {n : Nat} (hn : n < 2 ^ 16) : stoi (toDecimal n) = .ok n := by
  obtain ⟨c, cs, hs⟩ := List.exists_cons_of_ne_nil (show toDecimal n ≠ [] from Nat.toDigits_ne_nil)
  have hdigit : ∀ x ∈ c :: cs, x.isDigit = true := by
    intro x hx
    rw [← hs] at hx
    exact isDigit_of_mem_toDecimal hx
  have hrange := Char.isDigit_iff_toNat.mp (hdigit c List.mem_cons_self)
  have hlower : 48 ≤ c.toNat := hrange.1
  have hc : cStr (toDecimal n) = c :: cs := by
    rw [← hs]
    exact cStr_eq_self (not_mem_toDecimal (by decide) n)
  -- neither white space nor a sign
  have hspace : isSpace c = false := by
    rw [isSpace, decide_eq_false_iff_not]
    rintro (rfl | ⟨-, hle⟩)
    · exact absurd hlower (by decide)
    · omega
  have hsign : sign (c :: cs) = (false, c :: cs) := by
    unfold sign
    split
    · next heq =>
      obtain ⟨rfl, -⟩ := List.cons.inj heq
      exact absurd hlower (by decide)
    · next heq =>
      obtain ⟨rfl, -⟩ := List.cons.inj heq
      exact absurd hlower (by decide)
    · rfl
  have hall : (c :: cs).takeWhile Char.isDigit = c :: cs := List.takeWhile_eq_self_iff.mpr hdigit
  have hvalue : Nat.ofDigitChars 10 (c :: cs) 0 = n := by
    rw [← hs]
    exact ofDigitChars_toDecimal n
  have hbounds : ¬ ((n : Int) < -2 ^ 31 ∨ 2 ^ 31 ≤ (n : Int)) := by omega
  rw [stoi, hc, List.dropWhile_cons_of_neg (by rw [hspace]; exact Bool.false_ne_true), hsign]
  simp only [hall, hvalue]
  rw [if_neg (List.cons_ne_nil c cs), if_neg Bool.false_ne_true, if_neg hbounds]

theorem ofInt_toNat (port : UInt16) : UInt16.ofInt port.toNat = port := by
  have hlt := port.toNat_lt
  apply UInt16.toNat_inj.mp
  rw [UInt16.ofInt, UInt16.toNat_ofNat_of_lt' (show _ < 65536 by omega)]
  omega

/-- An address alone, and with a port behind it. -/
theorem ofString_of_split {text host : List Char} {addr : InAddr}
    (hhost : inetPton (cStr host) = some addr) :
    (StringUtils.split text [':'] true = .ok [host] →
      ofString text = .ok { address := addr.ntohl, port := 0, addressStr := host }) ∧
    ∀ port value, StringUtils.split text [':'] true = .ok [host, port] → stoi port = .ok value →
      ofString text =
        .ok { address := addr.ntohl, port := UInt16.ofInt value, addressStr := host } := by
  constructor
  · intro hsplit
    rw [ofString, hsplit]
    simp only [hhost]
    rfl
  · intro port value hsplit hvalue
    rw [ofString, hsplit]
    simp only [hhost, hvalue]
    rfl

/-- A dotted address, with `:` and a number behind it or not. -/
theorem ofString_inetNtoa (addr : InAddr) :
    ofString (inetNtoa addr) =
        .ok { address := addr.ntohl, port := 0, addressStr := inetNtoa addr } ∧
      ∀ port : UInt16, ofString (inetNtoa addr ++ [':'] ++ toDecimal port.toNat) =
        .ok { address := addr.ntohl, port, addressStr := inetNtoa addr } := by
  have hcolon : ':' ∉ inetNtoa addr := not_mem_inetNtoa (by decide) (by decide)
  have hne : inetNtoa addr ≠ [] := by simp [inetNtoa]
  have hhost : inetPton (cStr (inetNtoa addr)) = some addr := by
    rw [cStr_eq_self (not_mem_inetNtoa (by decide) (by decide)), inetPton_inetNtoa]
  constructor
  · have hsplit : StringUtils.split (inetNtoa addr) [':'] true = .ok [inetNtoa addr] := by
      rw [← StringUtils.split_intercalate (List.forall_mem_singleton.mpr hcolon)
        (List.forall_mem_singleton.mpr hne), List.intercalate_singleton]
    exact (ofString_of_split hhost).1 hsplit
  · intro port
    have hport : ':' ∉ toDecimal port.toNat := not_mem_toDecimal (by decide) _
    have hsplit : StringUtils.split (inetNtoa addr ++ [':'] ++ toDecimal port.toNat) [':'] true =
        .ok [inetNtoa addr, toDecimal port.toNat] := by
      rw [← StringUtils.split_intercalate
        (List.forall_mem_cons.mpr ⟨hcolon, List.forall_mem_singleton.mpr hport⟩)
        (List.forall_mem_cons.mpr ⟨hne, List.forall_mem_singleton.mpr Nat.toDigits_ne_nil⟩),
        List.intercalate_cons_cons, List.intercalate_singleton]
    rw [(ofString_of_split hhost).2 _ _ hsplit (stoi_toDecimal port.toNat_lt), ofInt_toNat]

/-- **An address that was printed is read back**, with the port if it was printed
and with port 0 if it was not. -/
theorem ofString_getAddressStr (address : UInt32) (port : UInt16) :
    ofString ((new address port).getAddressStr true) = .ok (new address port) ∧
      ofString ((new address port).getAddressStr false) = .ok (new address 0) := by
  have hstr : (new address port).addressStr = inetNtoa (inAddr address) := toAddressStr_eq address
  obtain ⟨hhost, hport⟩ := ofString_inetNtoa (inAddr address)
  rw [ntohl_inAddr, ← hstr] at hhost hport
  exact ⟨hport port, hhost⟩

/-- A text without tokens is colons only. -/
theorem eq_colon_of_split {text : List Char}
    (h : StringUtils.split text [':'] true = .ok []) : ∀ c ∈ text, c = ':' := by
  rw [StringUtils.split_singleton, Except.ok.injEq, List.filter_eq_nil_iff] at h
  have hempty : ∀ parts : List (List Char), (∀ part ∈ parts, part = []) →
      ∀ c ∈ [':'].intercalate parts, c = ':' := by
    intro parts hparts
    induction parts with
    | nil =>
      intro c hc
      cases hc
    | cons part parts ih =>
      obtain ⟨rfl, hrest⟩ := List.forall_mem_cons.mp hparts
      cases parts with
      | nil =>
        intro c hc
        cases hc
      | cons next rest =>
        intro c hc
        rw [List.intercalate_cons_cons, List.nil_append, List.mem_append,
          List.mem_singleton] at hc
        exact hc.elim id (ih hrest c)
  rw [← @List.intercalate_splitOn _ text _ _ ':']
  apply hempty
  intro part hpart
  by_contra hne
  exact h part hpart (decide_eq_true hne)

/-- **The string of an address that was read is the number's**, up to a NUL, unless
there was nothing but colons to read. -/
theorem addressStr_of_ofString {text : List Char} {a : AddressIPV4} (h : ofString text = .ok a) :
    cStr a.addressStr = toAddressStr a.address ∨
      (∀ c ∈ text, c = ':') ∧ a.address = invalidAddress ∧ a.addressStr = [] := by
  rw [ofString] at h
  split at h
  · cases h
  · next hsplit =>
    obtain rfl := Except.ok.inj h
    exact Or.inr ⟨eq_colon_of_split hsplit, rfl, rfl⟩
  · next host tokens hsplit =>
    left
    split at h
    · cases h
    · split at h
      · cases h
      · next addr hhost =>
        have hstr : cStr host = toAddressStr addr.ntohl := by
          rw [toAddressStr_ntohl, eq_of_inetPton hhost]
        split at h
        · obtain rfl := Except.ok.inj h
          exact hstr
        · split at h
          · cases h
          · obtain rfl := Except.ok.inj h
            exact hstr

theorem addressStr_of_ofString_localhost :
    cStr (new 0x7F000001 0).addressStr = toAddressStr 0x7F000001 ∨
      (∀ c ∈ "127.0.0.1".toList, c = ':') ∧ (new 0x7F000001 0).address = invalidAddress ∧
        (new 0x7F000001 0).addressStr = [] := by
  have hread : ofString "127.0.0.1".toList = .ok (new 0x7F000001 0) :=
    (@ofString_of_split _ _ ⟨127, 0, 0, 1⟩ (by decide +kernel)).1
      (@StringUtils.split_intercalate _ ["127.0.0.1".toList] (by decide) (by decide))
  exact addressStr_of_ofString hread

end AddressIPV4

end Ibdxnet.Sys
