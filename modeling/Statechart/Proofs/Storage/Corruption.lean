import Mathlib.Algebra.Group.Nat.Defs
import Mathlib.Logic.Function.Basic
import Statechart.Proofs.Storage.Reopening

/-!
# Short corruptions

The register of the checksum moves by a map that is linear and loses nothing. Up to four bytes fill
it without overlap, so that two files that differ in four bytes next to each other leave different
registers, and what follows keeps them apart. The checksum is taken of the entries as they are read:
where reading is not exact, a file may be changed without a change of its entries.

- `Checksum.shift_xor`, `Checksum.shift_injective` : one bit of the division
- `Checksum.foldl_absorb`    : up to four bytes at once
- `DifferWithin`             : byte sequences that agree outside of a window
- `Checksum.text_ne`         : the checksums of sequences that differ within four bytes
- `StoreFile.corruption_detected` : a store file changed within four bytes is refused
- `StoreFile.gaugeWorn_opens` : but for a real number that is read as its neighbour
-/

namespace Statechart

/-! ## Hexadecimal digits -/

namespace Text

theorem hexDigit_injective {m n : Nat} (hm : m < 16) (hn : n < 16)
    (h : hexDigit m = hexDigit n) : m = n := by
  have hall : ∀ i < 16, ∀ j < 16, hexDigit i = hexDigit j → i = j := by decide
  exact hall m hm n hn h

/-- The digits tell the number, as far as they go. -/
theorem hexText_injective {width m n : Nat} (hm : m < 16 ^ width) (hn : n < 16 ^ width)
    (h : hexText width m = hexText width n) : m = n := by
  have hdigits : ∀ i < width, m / 16 ^ i % 16 = n / 16 ^ i % 16 := fun i hi =>
    hexDigit_injective (Nat.mod_lt _ (by decide)) (Nat.mod_lt _ (by decide))
      (List.map_inj_left.1 (String.ofList_injective h) i (by simpa using hi))
  suffices hmod : ∀ k ≤ width, m % 16 ^ k = n % 16 ^ k by
    have h := hmod width (Nat.le_refl _)
    rwa [Nat.mod_eq_of_lt hm, Nat.mod_eq_of_lt hn] at h
  intro k hk
  induction k with
  | zero => simp [Nat.mod_one]
  | succ k ih => rw [Nat.mod_pow_succ, Nat.mod_pow_succ, ih (by omega), hdigits k (by omega)]

end Text

namespace Checksum

/-! ## One bit -/

theorem shift_xor (r s : BitVec 32) : shift (r ^^^ s) = shift r ^^^ shift s := by
  simp only [shift, BitVec.getLsbD_xor, BitVec.ushiftRight_xor_distrib]
  cases r.getLsbD 0 <;> cases s.getLsbD 0
  · rfl
  · simp [BitVec.xor_assoc]
  · simp only [Bool.true_xor, Bool.not_false, if_true, Bool.false_eq_true, if_false]
    ac_rfl
  · -- the polynomial is taken off on both sides
    simp only [Bool.true_xor, Bool.not_true, if_true, Bool.false_eq_true, if_false]
    calc r >>> 1 ^^^ s >>> 1
        = r >>> 1 ^^^ s >>> 1 ^^^ (polynomial ^^^ polynomial) := by simp
      _ = r >>> 1 ^^^ polynomial ^^^ (s >>> 1 ^^^ polynomial) := by ac_rfl

/-- The bit that is shifted out comes back as the highest bit of the polynomial. -/
theorem getLsbD_shift_last (r : BitVec 32) : (shift r).getLsbD 31 = r.getLsbD 0 := by
  have hpolynomial : polynomial.getLsbD 31 = true := by decide
  unfold shift
  split <;> simp_all

theorem shift_injective : Function.Injective shift := by
  intro r s h
  have hlast : r.getLsbD 0 = s.getLsbD 0 := by
    rw [← getLsbD_shift_last, ← getLsbD_shift_last, h]
  have hrest : r >>> 1 = s >>> 1 := by
    unfold shift at h
    rw [hlast] at h
    split at h
    · exact (BitVec.xor_left_inj polynomial).1 h
    · exact h
  refine BitVec.eq_of_getLsbD_eq fun i hi => ?_
  cases i with
  | zero => exact hlast
  | succ i =>
      have hbit := congrArg (fun x : BitVec 32 => x.getLsbD i) hrest
      simpa [Nat.add_comm] using hbit

/-! ## Several bits -/

theorem shifts_xor (n : Nat) (r s : BitVec 32) :
    shifts n (r ^^^ s) = shifts n r ^^^ shifts n s := by
  induction n generalizing r s with
  | zero => rfl
  | succ n ih => rw [shifts, shift_xor, ih, shifts, shifts]

theorem shifts_injective (n : Nat) : Function.Injective (shifts n) := by
  induction n with
  | zero => exact Function.injective_id
  | succ n ih => exact ih.comp shift_injective

theorem shifts_add (m n : Nat) (r : BitVec 32) : shifts (m + n) r = shifts n (shifts m r) := by
  induction m generalizing r with
  | zero => rw [Nat.zero_add, shifts]
  | succ m ih => rw [Nat.add_right_comm, shifts, shifts, ih]

/-- What was moved up without loss comes down unchanged. -/
theorem shifts_shiftLeft {n : Nat} {r : BitVec 32} (hn : n ≤ 32)
    (hhigh : ∀ i, 32 ≤ i + n → r.getLsbD i = false) : shifts n (r <<< n) = r := by
  induction n with
  | zero => simp [shifts]
  | succ n ih =>
      -- the bit that is shifted out is not set, so that the polynomial does not come in
      have hshift : shift (r <<< (n + 1)) = r <<< n := by
        refine BitVec.eq_of_getLsbD_eq fun i hi => ?_
        rw [shift, if_neg (by simp), BitVec.getLsbD_ushiftRight]
        by_cases hlast : i = 31
        · subst hlast
          rw [BitVec.getLsbD_of_ge _ _ (by decide), BitVec.getLsbD_shiftLeft,
            hhigh (31 - n) (by omega), Bool.and_false]
        · have hlow : 1 + i < n + 1 ↔ i < n := by omega
          simp only [BitVec.getLsbD_shiftLeft, hi, hlow, show 1 + i < 32 by omega,
            show 1 + i - (n + 1) = i - n by omega]
      rw [shifts, hshift]
      exact ih (by omega) fun i hi => hhigh i (by omega)

/-! ## Several bytes -/

/-- The bytes in a register, the first one lowest. -/
def word : List UInt8 → BitVec 32
  | [] => 0#32
  | byte :: rest => BitVec.ofNat 32 byte.toNat ^^^ (word rest <<< 8)

theorem getLsbD_ofNat_byte {byte : UInt8} {i : Nat} (hi : 8 ≤ i) :
    (BitVec.ofNat 32 byte.toNat).getLsbD i = false := by
  have hlt : byte.toNat < 2 ^ i :=
    Nat.lt_of_lt_of_le byte.toNat_lt (Nat.pow_le_pow_right (by decide) hi)
  simp [BitVec.getLsbD_ofNat, Nat.testBit_lt_two_pow hlt]

theorem getLsbD_word {bytes : List UInt8} {i : Nat} (hi : 8 * bytes.length ≤ i) :
    (word bytes).getLsbD i = false := by
  induction bytes generalizing i with
  | nil => simp [word]
  | cons byte rest ih =>
      rw [List.length_cons] at hi
      rw [word, BitVec.getLsbD_xor, getLsbD_ofNat_byte (by omega), BitVec.getLsbD_shiftLeft,
        ih (by omega)]
      simp

/-- Three bytes can be moved up by one more and come down again. -/
theorem shifts_word {bytes : List UInt8} (h : bytes.length ≤ 3) :
    shifts 8 (word bytes <<< 8) = word bytes :=
  shifts_shiftLeft (by decide) fun _ hi => getLsbD_word (by omega)

/-- Up to four bytes can be put into the register at once. -/
theorem foldl_absorb {bytes : List UInt8} (h : bytes.length ≤ 4) (r : BitVec 32) :
    bytes.foldl absorb r = shifts (8 * bytes.length) (r ^^^ word bytes) := by
  induction bytes generalizing r with
  | nil => simp [shifts, word]
  | cons byte rest ih =>
      rw [List.length_cons] at h
      calc (byte :: rest).foldl absorb r
          = shifts (8 * rest.length)
              (shifts 8 (r ^^^ BitVec.ofNat 32 byte.toNat) ^^^ word rest) := ih (by omega) _
        _ = shifts (8 * rest.length) (shifts 8 (r ^^^ word (byte :: rest))) := by
            rw [word, ← BitVec.xor_assoc, shifts_xor 8 _ (word rest <<< 8), shifts_word (by omega)]
        _ = shifts (8 * (byte :: rest).length) (r ^^^ word (byte :: rest)) := by
            rw [← shifts_add, List.length_cons, Nat.mul_succ, Nat.add_comm]

theorem word_injective {x y : List UInt8} (hlength : x.length = y.length) (h : x.length ≤ 4)
    (heq : word x = word y) : x = y := by
  induction x generalizing y with
  | nil => exact (List.length_eq_zero_iff.1 hlength.symm).symm
  | cons a u ih =>
      cases y with
      | nil => cases hlength
      | cons b v =>
          rw [List.length_cons] at h
          simp only [List.length_cons, Nat.add_right_cancel_iff] at hlength
          -- the lowest eight bits are those of the first byte
          have hfirst : a = b := by
            refine UInt8.toNat_inj.1 (Nat.eq_of_testBit_eq fun i => ?_)
            by_cases hi : i < 8
            · have hbit := congrArg (fun r : BitVec 32 => r.getLsbD i) heq
              simpa only [word, BitVec.getLsbD_xor, BitVec.getLsbD_ofNat, BitVec.getLsbD_shiftLeft,
                hi, show i < 32 by omega, decide_true, Bool.true_and, Bool.not_true,
                Bool.false_and, Bool.xor_false] using hbit
            · have hlt : ∀ byte : UInt8, byte.toNat < 2 ^ i := fun byte =>
                Nat.lt_of_lt_of_le byte.toNat_lt (Nat.pow_le_pow_right (by decide) (by omega))
              rw [Nat.testBit_lt_two_pow (hlt a), Nat.testBit_lt_two_pow (hlt b)]
          subst hfirst
          -- the others come down by eight bits, which they can, being three at most
          have hrest := congrArg (shifts 8) ((BitVec.xor_right_inj _).1 heq)
          rw [shifts_word (by omega), shifts_word (by omega)] at hrest
          rw [ih hlength (by omega) hrest]

theorem absorb_injective (byte : UInt8) : Function.Injective fun r => absorb r byte :=
  fun _ _ h => (BitVec.xor_left_inj _).1 (shifts_injective 8 h)

/-- What follows keeps different registers apart. -/
theorem foldl_absorb_injective (bytes : List UInt8) :
    Function.Injective fun r => bytes.foldl absorb r := by
  induction bytes with
  | nil => exact Function.injective_id
  | cons byte rest ih => exact ih.comp (absorb_injective byte)

end Checksum

/-! ## Windows -/

/-- Byte sequences of one length that differ, but only within a window of some bytes. -/
def DifferWithin (width : Nat) (x y : List UInt8) : Prop :=
  x.length = y.length ∧ x ≠ y ∧ ∃ start, ∀ i, x[i]? ≠ y[i]? → start ≤ i ∧ i < start + width

/-- What stands before the window and after it is the same. -/
theorem DifferWithin.exists_window {width : Nat} {x y : List UInt8} (h : DifferWithin width x y) :
    ∃ before u v after, x = before ++ u ++ after ∧ y = before ++ v ++ after ∧
      u.length = v.length ∧ u.length ≤ width ∧ u ≠ v := by
  obtain ⟨hlength, hne, start, hwindow⟩ := h
  have hsame : ∀ i, i < start ∨ start + width ≤ i → x[i]? = y[i]? := fun i hi => by
    by_contra hdiffer
    have := hwindow i hdiffer
    omega
  have hbefore : x.take start = y.take start := by
    refine List.ext_getElem? fun i => ?_
    rw [List.getElem?_take, List.getElem?_take]
    split
    · exact hsame i (.inl ‹_›)
    · rfl
  have hafter : x.drop (start + width) = y.drop (start + width) := by
    refine List.ext_getElem? fun i => ?_
    rw [List.getElem?_drop, List.getElem?_drop]
    exact hsame _ (.inr (by omega))
  have hsplit : ∀ z : List UInt8,
      z = z.take start ++ (z.drop start).take width ++ z.drop (start + width) := fun z => by
    rw [List.append_assoc, ← List.drop_drop, List.take_append_drop, List.take_append_drop]
  refine ⟨x.take start, (x.drop start).take width, (y.drop start).take width,
    x.drop (start + width), hsplit x, ?_, ?_, ?_, ?_⟩
  · rw [hbefore, hafter]
    exact hsplit y
  · simp [hlength]
  · exact List.length_take_le _ _
  · intro heq
    refine hne ((hsplit x).trans ?_)
    rw [hbefore, heq, hafter]
    exact (hsplit y).symm

theorem differWithin_of_window {width : Nat} {before u v after : List UInt8}
    (hlength : u.length = v.length) (hwidth : u.length ≤ width) (hne : u ≠ v) :
    DifferWithin width (before ++ u ++ after) (before ++ v ++ after) := by
  refine ⟨by simp [hlength], fun heq => hne ?_, before.length, fun i hi => ?_⟩
  · exact List.append_cancel_left (List.append_cancel_right heq)
  · by_contra houtside
    refine hi ?_
    by_cases hbefore : i < before.length
    · simp only [List.append_assoc, List.getElem?_append_left hbefore]
    · have hu : u.length ≤ i - before.length := by omega
      have hv : v.length ≤ i - before.length := hlength ▸ hu
      simp only [List.append_assoc, List.getElem?_append_right (Nat.le_of_not_lt hbefore),
        List.getElem?_append_right hu, List.getElem?_append_right hv, hlength]

namespace Checksum

theorem ofBytes_ne {x y : List UInt8} (h : DifferWithin 4 x y) : ofBytes x ≠ ofBytes y := by
  obtain ⟨before, u, v, after, rfl, rfl, hlength, hwidth, hne⟩ := h.exists_window
  intro heq
  refine hne (word_injective hlength hwidth ?_)
  -- back through the inversion at the end, the bytes after the window, and the window
  have hend := BitVec.not_inj.1 heq
  simp only [List.foldl_append] at hend
  generalize before.foldl absorb (BitVec.allOnes 32) = r at hend
  have hwindow := foldl_absorb_injective after hend
  rw [foldl_absorb hwidth, foldl_absorb (hlength ▸ hwidth), hlength] at hwindow
  exact (BitVec.xor_right_inj _).1 (shifts_injective _ hwindow)

theorem text_ne {s t : String} (h : DifferWithin 4 s.toUTF8.toList t.toUTF8.toList) :
    text s ≠ text t := fun heq =>
  ofBytes_ne h (BitVec.eq_of_toNat_eq
    (Text.hexText_injective (BitVec.isLt _) (BitVec.isLt _) heq))

end Checksum

/-! ## Store files -/

namespace StoreFile

/-- The bytes that the checksum is taken of. -/
def encoding (table : Table Value) : List UInt8 :=
  (Value.record table.entries).compact.toUTF8.toList

/-- A store file with other entries under the version and the checksum that were written. -/
def withEntries (f : StoreFile) (t : Table Value) : StoreFile := { f with table := t }

/-- Entries whose encodings differ within four bytes have different checksums. A store file that was
written for the ones, and that is read as having the others under the version and the checksum that
were written, is refused as corrupted, wherever it lies and whatever else is in it. So is one in
which the others are written, as long as they are not nested too deeply and their numbers read
back. -/
theorem corruption_detected {t t' : Table Value} (h : DifferWithin 4 (encoding t) (encoding t')) :
    checksumOf t ≠ checksumOf t' ∧
      (∀ (path : String) (syncs : Bool) (d : Disk) (content : String) (now : Int) (f : StoreFile),
        d.file = some content → read? content = some f →
          f.version = (ofTable now t).version → f.checksum = (ofTable now t).checksum →
          f.table = t' →
            (Store.load path syncs d).2 =
              .error (.checksumMismatch (path ++ "/variables.json") (checksumOf t)
                (checksumOf t'))) ∧
      ∀ (path : String) (syncs : Bool) (d : Disk) (now : Int), IsSigned now → t'.IsProper →
        t'.IsShallow → d.file = some ((ofTable now t).withEntries t').render →
          (Store.load path syncs d).2 =
            .error (.checksumMismatch (path ++ "/variables.json") (checksumOf t)
              (checksumOf t')) := by
  have hne : checksumOf t ≠ checksumOf t' := Checksum.text_ne h
  have hrefused : ∀ (path : String) (syncs : Bool) (d : Disk) (content : String) (now : Int)
      (f : StoreFile), d.file = some content → read? content = some f →
        f.version = (ofTable now t).version → f.checksum = (ofTable now t).checksum →
        f.table = t' →
          (Store.load path syncs d).2 =
            .error (.checksumMismatch (path ++ "/variables.json") (checksumOf t)
              (checksumOf t')) := by
    intro path syncs d content now f hfile hread hversion hchecksum htable
    have hversion' : f.version = currentVersion := hversion
    have hchecksum' : f.checksum = checksumOf t := hchecksum
    have hcheck : f.check (Store.filePath ⟨path, syncs, .empty⟩) =
        .error (.checksumMismatch (path ++ "/variables.json") (checksumOf t) (checksumOf t')) := by
      simp [check, hversion', hchecksum', htable, hne.symm, Store.filePath]
    simp [Store.load, Disk.createDirectory, hfile, hread, hcheck, Except.map]
  refine ⟨hne, hrefused, fun path syncs d now hnow hproper hshallow hfile => ?_⟩
  have hversion : ((ofTable now t).withEntries t').version < 4294967296 :=
    show currentVersion < 4294967296 by decide
  have hread := (read?_render hversion hnow hproper).1 hshallow
  exact hrefused path syncs d _ now _ hfile hread rfl rfl rfl

/-! ### Trials -/

def lampLit : Table Value := Table.empty.insert "lit" (.bool true)

def lampLost : Table Value := Table.empty.insert "lit" .null

theorem lampLost_detected :
    DifferWithin 4 (encoding lampLit) (encoding lampLost) ∧
      checksumOf lampLit ≠ checksumOf lampLost ∧
      (Store.load "store" true
        { Disk.fresh with file := some ((ofTable 7 lampLit).withEntries lampLost).render }).2 =
        .error (.checksumMismatch "store/variables.json" (checksumOf lampLit)
          (checksumOf lampLost)) ∧
      lampLost.IsProper ∧ lampLost.IsShallow ∧
      (Store.load "spare" false
        { Disk.fresh with file := some ((ofTable 8 lampLit).withEntries lampLost).render }).2 =
        .error (.checksumMismatch "spare/variables.json" (checksumOf lampLit)
          (checksumOf lampLost)) := by
  have hwindow : DifferWithin 4 (encoding lampLit) (encoding lampLost) := by
    have hencoding : ∀ word ∈ [("true", lampLit), ("null", lampLost)],
        encoding word.2 =
          "\x7b\"lit\":".toUTF8.toList ++ word.1.toUTF8.toList ++ "\x7d".toUTF8.toList := by
      decide +kernel
    rw [hencoding ("true", lampLit) (by simp), hencoding ("null", lampLost) (by simp)]
    exact differWithin_of_window (u := "true".toUTF8.toList) (v := "null".toUTF8.toList)
      (by decide +kernel) (by decide +kernel) (by decide +kernel)
  have hread : read? ((ofTable 7 lampLit).withEntries lampLost).render =
      some ((ofTable 7 lampLit).withEntries lampLost) := by
    decide +kernel
  have hproper : lampLost.IsProper := by
    intro entry hentry
    obtain rfl := List.mem_singleton.1 hentry
    exact ⟨rfl, .null⟩
  have hshallow : lampLost.IsShallow := by decide +kernel
  obtain ⟨hne, hrefused, hwritten⟩ := corruption_detected hwindow
  exact ⟨hwindow, hne, hrefused "store" true _ _ 7 _ rfl hread rfl rfl rfl, hproper, hshallow,
    hwritten "spare" false _ 8 (by decide) hproper hshallow rfl⟩

/-- A real number that is written as it is read. -/
def gauge : Table Value :=
  Table.empty.insert "v" (.number (.real 9.013323021395928 (by decide +kernel)))

/-- The real number before it, which is read as that one. -/
def gaugeWorn : Table Value :=
  Table.empty.insert "v" (.number (.real 9.013323021395927 (by decide +kernel)))

/-- One digit of the store file is another one, and the directory opens all the same. -/
theorem gaugeWorn_opens :
    gaugeWorn ≠ gauge ∧ DifferWithin 4 (encoding gauge) (encoding gaugeWorn) ∧
      Disk.Holds { Disk.fresh with file := some ((ofTable 7 gauge).withEntries gaugeWorn).render }
        gauge := by
  have hwindow : DifferWithin 4 (encoding gauge) (encoding gaugeWorn) := by
    have hencoding : ∀ digit ∈ [("8", gauge), ("7", gaugeWorn)],
        encoding digit.2 =
          "\x7b\"v\":9.01332302139592".toUTF8.toList ++ digit.1.toUTF8.toList ++
            "\x7d".toUTF8.toList := by
      decide +kernel
    rw [hencoding ("8", gauge) (by simp), hencoding ("7", gaugeWorn) (by simp)]
    exact differWithin_of_window (u := "8".toUTF8.toList) (v := "7".toUTF8.toList)
      (by decide +kernel) (by decide +kernel) (by decide +kernel)
  have hread : read? ((ofTable 7 gauge).withEntries gaugeWorn).render = some (ofTable 7 gauge) := by
    decide +kernel
  refine ⟨by decide +kernel, hwindow, Disk.holds_of_read rfl hread fun path => ?_⟩
  exact check_ofTable 7 gauge path

end StoreFile

end Statechart
