import Passmower.Encoding.Utf8

/-! Base64, in both alphabets, as `Buffer` writes it and reads it. -/
namespace Encoding

def letter (url : Bool) (sextet : Nat) : UInt16 :=
  UInt16.ofNat (
    if sextet < 26 then 0x41 + sextet
    else if sextet < 52 then 0x61 + (sextet - 26)
    else if sextet < 62 then 0x30 + (sextet - 52)
    else if sextet = 62 then (if url then 0x2D else 0x2B)
    else (if url then 0x5F else 0x2F))

def sextet? (c : UInt16) : Option Nat :=
  let n := c.toNat
  if 0x41 ≤ n ∧ n ≤ 0x5A then some (n - 0x41)
  else if 0x61 ≤ n ∧ n ≤ 0x7A then some (n - 0x61 + 26)
  else if 0x30 ≤ n ∧ n ≤ 0x39 then some (n - 0x30 + 52)
  else if n = 0x2B ∨ n = 0x2D then some 62
  else if n = 0x2F ∨ n = 0x5F then some 63
  else none

def sextets : Bytes → List Nat
  | [] => []
  | [a] => [a.toNat / 4,a.toNat % 4 * 16]
  | [a,b] => [a.toNat / 4,a.toNat % 4 * 16 + b.toNat / 16,b.toNat % 16 * 4]
  | a :: b :: c :: rest =>
      a.toNat / 4 :: (a.toNat % 4 * 16 + b.toNat / 16) :: (b.toNat % 16 * 4 + c.toNat / 64) :: c.toNat % 64 :: sextets rest

def octets : List Nat → Bytes
  | [] | [_] => []
  | [p,q] => [UInt8.ofNat (p * 4 + q / 16)]
  | [p,q,r] => [UInt8.ofNat (p * 4 + q / 16),UInt8.ofNat (q % 16 * 16 + r / 4)]
  | p :: q :: r :: s :: rest =>
      UInt8.ofNat (p * 4 + q / 16) :: UInt8.ofNat (q % 16 * 16 + r / 4) :: UInt8.ofNat (r % 4 * 64 + s) :: octets rest

def base64Url (bytes : Bytes) : Utf16 := (sextets bytes).map (letter true)

def base64 (bytes : Bytes) : Utf16 :=
  (sextets bytes).map (letter false) ++ List.replicate ((3 - bytes.length % 3) % 3) 0x3D

/- `Buffer.from(text, 'base64')`, and 'base64url': both read either alphabet, up to a `=`, and pass over what is no
letter. -/
def fromBase64 (text : Utf16) : Bytes := octets ((text.takeWhile (· ≠ 0x3D)).filterMap sextet?)

theorem sextetRange {bytes : Bytes} : ∀ sextet ∈ sextets bytes, sextet < 64 := by
  have bound (byte : UInt8) : byte.toNat < 0x100 := byte.toNat_lt
  induction bytes using sextets.induct with
  | case1 => simp [sextets]
  | case2 a =>
      have := bound a
      simp only [sextets,List.mem_cons,List.not_mem_nil,or_false]
      omega
  | case3 a b =>
      have := bound a
      have := bound b
      simp only [sextets,List.mem_cons,List.not_mem_nil,or_false]
      omega
  | case4 a b c rest ih =>
      have := bound a
      have := bound b
      have := bound c
      simp only [sextets,List.mem_cons]
      rintro sextet (rfl | rfl | rfl | rfl | inside)
      · omega
      · omega
      · omega
      · omega
      · exact ih sextet inside

theorem sextetsRead (bytes : Bytes) : octets (sextets bytes) = bytes := by
  have bound (byte : UInt8) : byte.toNat < 0x100 := byte.toNat_lt
  have same {n : Nat} {byte : UInt8} (value : n = byte.toNat) : UInt8.ofNat n = byte := by
    rw [value,UInt8.ofNat_toNat]
  induction bytes using sextets.induct with
  | case1 => rfl
  | case2 a =>
      have := bound a
      simp only [sextets,octets]
      rw [@same _ a (by omega)]
  | case3 a b =>
      have := bound a
      have := bound b
      simp only [sextets,octets]
      rw [@same _ a (by omega),@same _ b (by omega)]
  | case4 a b c rest ih =>
      have := bound a
      have := bound b
      have := bound c
      simp only [sextets,octets]
      rw [@same _ a (by omega),@same _ b (by omega),@same _ c (by omega),ih]

theorem letterRead (url : Bool) {sextet : Nat} (small : sextet < 64) :
    sextet? (letter url sextet) = some sextet ∧ letter url sextet ≠ 0x3D := by
  have all : ∀ url, ∀ sextet < 64, sextet? (letter url sextet) = some sextet ∧ letter url sextet ≠ 0x3D := by decide
  exact all url sextet small

theorem lettersRead (url : Bool) {sextets : List Nat} (small : ∀ sextet ∈ sextets, sextet < 64) (rest : Utf16)
    (ended : rest.takeWhile (· ≠ 0x3D) = []) :
    ((sextets.map (letter url) ++ rest).takeWhile (· ≠ 0x3D)).filterMap sextet? = sextets := by
  induction sextets with
  | nil => rw [List.map_nil,List.nil_append,ended,List.filterMap_nil]
  | cons sextet sextets ih =>
      obtain ⟨read,other⟩ := letterRead url (small sextet List.mem_cons_self)
      rw [List.map_cons,List.cons_append,List.takeWhile_cons_of_pos (by simpa using other),
        List.filterMap_cons_some read,ih fun other inside => small other (List.mem_cons_of_mem _ inside)]

theorem urlLetter {c : UInt16} {bytes : Bytes} (inside : c ∈ base64Url bytes) : ∃ sextet < 64, letter true sextet = c := by
  obtain ⟨sextet,sextetInside,same⟩ := List.mem_map.mp inside
  exact ⟨sextet,sextetRange sextet sextetInside,same⟩

theorem base64UrlRead (bytes : Bytes) : fromBase64 (base64Url bytes) = bytes := by
  have letters := lettersRead true (@sextetRange bytes) [] rfl
  rw [List.append_nil] at letters
  rw [fromBase64,base64Url,letters,sextetsRead]

theorem base64Read (bytes : Bytes) : fromBase64 (base64 bytes) = bytes := by
  have ended (n : Nat) : (List.replicate n (0x3D : UInt16)).takeWhile (· ≠ 0x3D) = [] := by
    cases n <;> simp [List.replicate]
  rw [fromBase64,base64,lettersRead false sextetRange _ (ended _),sextetsRead]

theorem base64UrlInjective {a b : Bytes} (same : base64Url a = base64Url b) : a = b := by
  rw [← base64UrlRead a,same,base64UrlRead]

end Encoding
