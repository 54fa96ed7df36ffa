/-
Standard base64: three bytes are spelled as four characters of the alphabet,
and a shorter last group is padded.
-/
import Mathlib.Data.List.GetD

namespace KiteX402

namespace Base64

def alphabet : List Char :=
  "ABCDEFGHIJKLMNOPQRSTUVWXYZabcdefghijklmnopqrstuvwxyz0123456789+/".toList

def digit (sextet : ℕ) : Char := alphabet.getD sextet '='

/-- The place of a character in the alphabet. -/
def sextet (c : Char) : Option ℕ := alphabet.idxOf? c

/-- The 24 bits of a group. -/
def pack (a b c : UInt8) : ℕ := a.toNat * 65536 + b.toNat * 256 + c.toNat

def encode : List UInt8 → List Char
  | a :: b :: c :: rest =>
      digit (pack a b c / 262144) :: digit (pack a b c / 4096 % 64) ::
        digit (pack a b c / 64 % 64) :: digit (pack a b c % 64) :: encode rest
  | [a, b] =>
      [digit (pack a b 0 / 262144), digit (pack a b 0 / 4096 % 64),
        digit (pack a b 0 / 64 % 64), '=']
  | [a] => [digit (pack a 0 0 / 262144), digit (pack a 0 0 / 4096 % 64), '=', '=']
  | [] => []

/-- The first byte of a group of one: the rest must be zero. -/
def unpackOne (bits : ℕ) : Option (List UInt8) :=
  if bits % 65536 = 0 then some [UInt8.ofNat (bits / 65536)] else none

/-- The first bytes of a group of two: the rest must be zero. -/
def unpackTwo (bits : ℕ) : Option (List UInt8) :=
  if bits % 256 = 0 then
    some [UInt8.ofNat (bits / 65536), UInt8.ofNat (bits / 256)]
  else none

def unpack (bits : ℕ) : List UInt8 :=
  [UInt8.ofNat (bits / 65536), UInt8.ofNat (bits / 256), UInt8.ofNat bits]

def join (w x y z : ℕ) : ℕ := w * 262144 + x * 4096 + y * 64 + z

def decodeLast (a b c : Char) : Option (List UInt8) :=
  if c = '=' then do unpackOne (join (← sextet a) (← sextet b) 0 0)
  else do unpackTwo (join (← sextet a) (← sextet b) (← sextet c) 0)

def decode : List Char → Option (List UInt8)
  | [] => some []
  | a :: b :: c :: d :: rest =>
      if d = '=' then
        if rest = [] then decodeLast a b c else none
      else do
        let bits := join (← sextet a) (← sextet b) (← sextet c) (← sextet d)
        let bytes ← decode rest
        some (unpack bits ++ bytes)
  | _ => none

theorem sextet_digit {n : ℕ} (hn : n < 64) : sextet (digit n) = some n := by
  have hall : ∀ n < 64, sextet (digit n) = some n := by decide +kernel
  exact hall n hn

theorem digit_ne_pad {n : ℕ} (hn : n < 64) : digit n ≠ '=' := by
  have hall : ∀ n < 64, digit n ≠ '=' := by decide +kernel
  exact hall n hn

theorem digit_mem (n : ℕ) : digit n ∈ '=' :: alphabet := by
  by_cases hn : n < alphabet.length
  · rw [digit, List.getD_eq_getElem alphabet '=' hn]
    exact List.mem_cons_of_mem _ (List.getElem_mem hn)
  · rw [digit, List.getD_eq_default alphabet '=' (Nat.le_of_not_lt hn)]
    exact List.mem_cons_self

/-- A text in base64 holds characters of the alphabet and padding. -/
theorem mem_of_mem_encode (bytes : List UInt8) :
    ∀ c ∈ encode bytes, c ∈ '=' :: alphabet := by
  fun_induction encode bytes with
  | case1 a b c rest ih =>
      simp only [List.forall_mem_cons]
      exact ⟨digit_mem _, digit_mem _, digit_mem _, digit_mem _, ih⟩
  | case2 a b =>
      simp only [List.forall_mem_cons]
      exact ⟨digit_mem _, digit_mem _, digit_mem _, List.mem_cons_self,
        List.forall_mem_nil _⟩
  | case3 a =>
      simp only [List.forall_mem_cons]
      exact ⟨digit_mem _, digit_mem _, List.mem_cons_self, List.mem_cons_self,
        List.forall_mem_nil _⟩
  | case4 => exact List.forall_mem_nil _

section Pack

variable (a b c : UInt8)

theorem pack_lt : pack a b c < 16777216 := by
  have ha := a.toNat_lt
  have hb := b.toNat_lt
  have hc := c.toNat_lt
  unfold pack
  omega

theorem pack_div_first : pack a b c / 65536 = a.toNat := by
  have hb := b.toNat_lt
  have hc := c.toNat_lt
  unfold pack
  omega

theorem ofNat_pack_second : UInt8.ofNat (pack a b c / 256) = b := by
  have hb := b.toNat_lt
  have hc := c.toNat_lt
  apply UInt8.toNat_inj.mp
  rw [UInt8.toNat_ofNat']
  unfold pack
  omega

theorem ofNat_pack_third : UInt8.ofNat (pack a b c) = c := by
  have hc := c.toNat_lt
  apply UInt8.toNat_inj.mp
  rw [UInt8.toNat_ofNat']
  unfold pack
  omega

theorem unpack_pack : unpack (pack a b c) = [a, b, c] := by
  rw [unpack, pack_div_first, ofNat_pack_second, ofNat_pack_third, UInt8.ofNat_toNat]

theorem unpackTwo_pack : unpackTwo (pack a b 0) = some [a, b] := by
  have hlow : pack a b 0 % 256 = 0 := by simp [pack, Nat.add_mod, Nat.mul_mod]
  rw [unpackTwo, if_pos hlow, pack_div_first, ofNat_pack_second, UInt8.ofNat_toNat]

theorem unpackOne_pack : unpackOne (pack a 0 0) = some [a] := by
  have hlow : pack a 0 0 % 65536 = 0 := by simp [pack]
  rw [unpackOne, if_pos hlow, pack_div_first, UInt8.ofNat_toNat]

end Pack

/-- Four sextets spell 24 bits. -/
theorem join_sextets (bits : ℕ) :
    join (bits / 262144) (bits / 4096 % 64) (bits / 64 % 64) (bits % 64) = bits := by
  unfold join
  omega

theorem sextet_digit_first (a b c : UInt8) :
    sextet (digit (pack a b c / 262144)) = some (pack a b c / 262144) := by
  have hbits := pack_lt a b c
  exact sextet_digit (by omega)

theorem sextet_digit_mod (n : ℕ) : sextet (digit (n % 64)) = some (n % 64) :=
  sextet_digit (Nat.mod_lt n (by decide))

theorem join_two (a b : UInt8) :
    join (pack a b 0 / 262144) (pack a b 0 / 4096 % 64) (pack a b 0 / 64 % 64) 0 =
      pack a b 0 := by
  have hlast : pack a b 0 % 64 = 0 := by simp [pack, Nat.add_mod, Nat.mul_mod]
  have hjoin := join_sextets (pack a b 0)
  rwa [hlast] at hjoin

theorem join_one (a : UInt8) :
    join (pack a 0 0 / 262144) (pack a 0 0 / 4096 % 64) 0 0 = pack a 0 0 := by
  have hlow : pack a 0 0 % 65536 = 0 := by simp [pack]
  have hthird : pack a 0 0 / 64 % 64 = 0 := by omega
  have hjoin := join_two a 0
  rwa [hthird] at hjoin

theorem decode_encode (bytes : List UInt8) : decode (encode bytes) = some bytes := by
  fun_induction encode bytes with
  | case1 a b c rest ih =>
      have hlast := digit_ne_pad (Nat.mod_lt (pack a b c) (by decide : 0 < 64))
      rw [decode, if_neg hlast, sextet_digit_first, sextet_digit_mod,
        sextet_digit_mod, sextet_digit_mod, ih]
      simp only [Option.bind_eq_bind, Option.bind_some, join_sextets, unpack_pack]
      rfl
  | case2 a b =>
      have hthird := digit_ne_pad
        (Nat.mod_lt (pack a b 0 / 64) (by decide : 0 < 64))
      -- Left to `simp`, the kernel would unfold the arithmetic of the groups.
      rw [decode, if_pos rfl, if_pos rfl, decodeLast, if_neg hthird,
        sextet_digit_first, Option.bind_eq_bind, Option.bind_some, sextet_digit_mod,
        Option.bind_some, sextet_digit_mod, Option.bind_some, join_two, unpackTwo_pack]
  | case3 a =>
      rw [decode, if_pos rfl, if_pos rfl, decodeLast, if_pos rfl,
        sextet_digit_first, Option.bind_eq_bind, Option.bind_some, sextet_digit_mod,
        Option.bind_some, join_one, unpackOne_pack]
  | case4 => rfl

end Base64

end KiteX402
