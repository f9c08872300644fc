import Mathlib.Data.List.Basic

/-! # Base64

The codec of the interpreter, with the standard alphabet and padding. The reader
is not strict: what is no letter is skipped, and nothing is read after the
padding that completes a group.
-/

namespace Base64

def alphabet : List Char := "ABCDEFGHIJKLMNOPQRSTUVWXYZabcdefghijklmnopqrstuvwxyz0123456789+/".toList

def letter (n : ℕ) : Char := alphabet.getD n 'A'

def value (c : Char) : Option ℕ := alphabet.idxOf? c

/-- `b64encode`. -/
def encode : List UInt8 → List Char
  | [] => []
  | [a] => [letter (a.toNat / 4), letter (a.toNat % 4 * 16), '=', '=']
  | [a, b] =>
    [letter (a.toNat / 4), letter (a.toNat % 4 * 16 + b.toNat / 16), letter (b.toNat % 16 * 4), '=']
  | a :: b :: c :: rest =>
    letter (a.toNat / 4) :: letter (a.toNat % 4 * 16 + b.toNat / 16) ::
      letter (b.toNat % 16 * 4 + c.toNat / 64) :: letter (c.toNat % 64) :: encode rest

/-- How far a group of four letters is read, and the bits that no byte has yet. -/
structure Reading where
  quadPos : ℕ := 0
  leftchar : ℕ := 0
  pads : ℕ := 0
  data : List UInt8 := []

def Reading.push (r : Reading) (n : ℕ) : Reading :=
  match r.quadPos with
  | 0 => { quadPos := 1, leftchar := n, data := r.data }
  | 1 => { quadPos := 2, leftchar := n % 16, data := r.data ++ [UInt8.ofNat (r.leftchar * 4 + n / 16)] }
  | 2 => { quadPos := 3, leftchar := n % 4, data := r.data ++ [UInt8.ofNat (r.leftchar * 16 + n / 4)] }
  | _ => { data := r.data ++ [UInt8.ofNat (r.leftchar * 64 + n)] }

/-- `a2b_base64` of ASCII characters; `none` is an incomplete group at the end. -/
def readFrom (r : Reading) : List Char → Option (List UInt8)
  | [] => if r.quadPos = 0 then some r.data else none
  | c :: s =>
    if c = '=' then
      if 2 ≤ r.quadPos then
        if 4 ≤ r.quadPos + (r.pads + 1) then some r.data
        else readFrom { r with pads := r.pads + 1 } s
      else readFrom r s
    else
      match value c with
      | some n => readFrom (r.push n) s
      | none => readFrom r s

/-- `b64decode` of a string. -/
def decode (s : List Char) : Option (List UInt8) :=
  if s.all fun c => c.toNat < 128 then readFrom {} s else none

theorem value_letter {n : ℕ} (hn : n < 64) : value (letter n) = some n ∧ letter n ≠ '=' := by
  have hall : ∀ n < 64, value (letter n) = some n ∧ letter n ≠ '=' := by decide +kernel
  exact hall n hn

theorem readFrom_letter {r : Reading} {n : ℕ} (hn : n < 64) (s : List Char) :
    readFrom r (letter n :: s) = readFrom (r.push n) s := by
  obtain ⟨hvalue, hpad⟩ := value_letter hn
  rw [readFrom, if_neg hpad, hvalue]

theorem ofNat_eq {n : ℕ} {b : UInt8} (h : n = b.toNat) : UInt8.ofNat n = b := by
  rw [h, UInt8.ofNat_toNat]

/-- Whole bytes are read back, whatever is left of a group that is complete. -/
theorem readFrom_encode : ∀ (bs acc : List UInt8) (leftchar pads : ℕ),
    readFrom ⟨0, leftchar, pads, acc⟩ (encode bs) = some (acc ++ bs)
  | [], acc, _, _ => by simp [encode, readFrom]
  | [a], acc, _, _ => by
    have ha := a.toNat_lt
    have hfirst : UInt8.ofNat (a.toNat / 4 * 4 + a.toNat % 4 * 16 / 16) = a := ofNat_eq (by omega)
    rw [encode, readFrom_letter (by omega), readFrom_letter (by omega)]
    change some (acc ++ [UInt8.ofNat (a.toNat / 4 * 4 + a.toNat % 4 * 16 / 16)]) = _
    rw [hfirst]
  | [a, b], acc, _, _ => by
    have ha := a.toNat_lt
    have hb := b.toNat_lt
    have hfirst : UInt8.ofNat (a.toNat / 4 * 4 + (a.toNat % 4 * 16 + b.toNat / 16) / 16) = a :=
      ofNat_eq (by omega)
    have hsecond : UInt8.ofNat ((a.toNat % 4 * 16 + b.toNat / 16) % 16 * 16 +
      b.toNat % 16 * 4 / 4) = b := ofNat_eq (by omega)
    rw [encode, readFrom_letter (by omega), readFrom_letter (by omega), readFrom_letter (by omega)]
    change some (acc ++ [UInt8.ofNat (a.toNat / 4 * 4 + (a.toNat % 4 * 16 + b.toNat / 16) / 16)] ++
      [UInt8.ofNat ((a.toNat % 4 * 16 + b.toNat / 16) % 16 * 16 + b.toNat % 16 * 4 / 4)]) = _
    rw [hfirst, hsecond, List.append_assoc]
    rfl
  | a :: b :: c :: rest, acc, _, _ => by
    have ha := a.toNat_lt
    have hb := b.toNat_lt
    have hc := c.toNat_lt
    have hfirst : UInt8.ofNat (a.toNat / 4 * 4 + (a.toNat % 4 * 16 + b.toNat / 16) / 16) = a :=
      ofNat_eq (by omega)
    have hsecond : UInt8.ofNat ((a.toNat % 4 * 16 + b.toNat / 16) % 16 * 16 +
      (b.toNat % 16 * 4 + c.toNat / 64) / 4) = b := ofNat_eq (by omega)
    have hthird : UInt8.ofNat ((b.toNat % 16 * 4 + c.toNat / 64) % 4 * 64 + c.toNat % 64) = c :=
      ofNat_eq (by omega)
    rw [encode, readFrom_letter (by omega), readFrom_letter (by omega), readFrom_letter (by omega),
      readFrom_letter (by omega)]
    change readFrom ⟨0, 0, 0, acc ++
      [UInt8.ofNat (a.toNat / 4 * 4 + (a.toNat % 4 * 16 + b.toNat / 16) / 16)] ++
      [UInt8.ofNat ((a.toNat % 4 * 16 + b.toNat / 16) % 16 * 16 +
        (b.toNat % 16 * 4 + c.toNat / 64) / 4)] ++
      [UInt8.ofNat ((b.toNat % 16 * 4 + c.toNat / 64) % 4 * 64 + c.toNat % 64)]⟩ _ = _
    rw [hfirst, hsecond, hthird, readFrom_encode rest]
    simp

theorem of_mem_encode {P : Char → Bool} (hletter : ∀ n < 64, P (letter n) = true)
    (hpad : P '=' = true) : ∀ bs : List UInt8, ∀ c ∈ encode bs, P c = true
  | [] => by simp [encode]
  | [a] => by
    have ha := a.toNat_lt
    simp only [encode, List.forall_mem_cons]
    exact ⟨hletter _ (by omega), hletter _ (by omega), hpad, hpad, by simp⟩
  | [a, b] => by
    have ha := a.toNat_lt
    have hb := b.toNat_lt
    simp only [encode, List.forall_mem_cons]
    exact ⟨hletter _ (by omega), hletter _ (by omega), hletter _ (by omega), hpad, by simp⟩
  | a :: b :: c :: rest => by
    have ha := a.toNat_lt
    have hb := b.toNat_lt
    have hc := c.toNat_lt
    simp only [encode, List.forall_mem_cons]
    exact ⟨hletter _ (by omega), hletter _ (by omega), hletter _ (by omega), hletter _ (by omega),
      of_mem_encode hletter hpad rest⟩

theorem length_encode : ∀ bs : List UInt8, (encode bs).length = (bs.length + 2) / 3 * 4
  | [] => rfl
  | [_] => by simp [encode]
  | [_, _] => by simp [encode]
  | _ :: _ :: _ :: rest => by
    simp only [encode, List.length_cons, length_encode rest]
    omega

theorem decode_encode (bs : List UInt8) : decode (encode bs) = some bs := by
  have hascii : ((encode bs).all fun c => c.toNat < 128) = true :=
    List.all_eq_true.mpr (of_mem_encode (by decide +kernel) (by decide) bs)
  rw [decode, if_pos hascii, readFrom_encode, List.nil_append]

end Base64
