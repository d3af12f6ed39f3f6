import Mathlib

/-!
# Files, streams and little-endian fields

Every reader in `graph_stats.cpp` works on a `std::ifstream` opened in binary mode and
a 4096-byte page buffer filled from it.  Both are modelled positionally over the
file's bytes.

* `File` — the bytes of an opened file.  A file's size is an `off_t`, so it carries the
  bound `length < 2 ^ 63` as a field; every offset inside a file is then a valid
  `std::streamoff`, and the `size_t` counters the record loops keep over a file
  cannot wrap.
* `readLE f pos n` — `in.read` of an `n`-byte little-endian integer at position `pos`:
  `none` exactly when the file ends first, i.e. when `in.good()` turns false.  A
  failed stream stays failed until `in.clear()`, so a run of reads followed by one
  `good()` test is one `Option` bind chain.
* `seekOk p` — `in.seekg` to position `p` succeeds iff `p` is a non-negative
  `std::streamoff`.  Seeking past the end of a regular file succeeds; the next read
  fails.
* `sectorLoad` — `memcpy` out of the page buffer.  A copy that leaves the buffer is
  undefined behaviour, modelled as `none`, so "every access stays in the page" is the
  statement that the readers never return `none`.

`leBytes`/`leNat` are the fixed-width encoder and decoder; `BytesAt f pos bs` says the
file holds `bs` at `pos`, which is how both the concatenated layout-A files and the
paged layout-C files are described.
-/

namespace Pipeann

/-! ### Little-endian fields -/

/-- The natural with the given little-endian bytes. -/
def leNat : List UInt8 → Nat
  | [] => 0
  | b :: bs => b.toNat + 256 * leNat bs

/-- The `w` little-endian bytes of `n`; bits above `8 * w` are dropped. -/
def leBytes : Nat → Nat → List UInt8
  | 0, _ => []
  | w + 1, n => UInt8.ofNat (n % 256) :: leBytes w (n / 256)

@[simp] theorem leNat_nil : leNat [] = 0 := rfl

@[simp] theorem leNat_cons (b : UInt8) (bs : List UInt8) :
    leNat (b :: bs) = b.toNat + 256 * leNat bs := rfl

@[simp] theorem leBytes_zero (n : Nat) : leBytes 0 n = [] := rfl

@[simp] theorem leBytes_succ (w n : Nat) :
    leBytes (w + 1) n = UInt8.ofNat (n % 256) :: leBytes w (n / 256) := rfl

@[simp] theorem length_leBytes (w n : Nat) : (leBytes w n).length = w := by
  induction w generalizing n <;> simp [*]

/-- A wide field is its low bytes followed by the field of the rest. -/
theorem leBytes_add (a b n : Nat) : leBytes (a + b) n = leBytes a n ++ leBytes b (n / 256 ^ a) := by
  induction a generalizing n with
  | zero => simp
  | succ a ih =>
    rw [Nat.succ_add, leBytes_succ, leBytes_succ, ih, Nat.div_div_eq_div_mul, ← Nat.pow_succ']
    rfl

theorem leNat_lt (bs : List UInt8) : leNat bs < 256 ^ bs.length := by
  induction bs with
  | nil => simp
  | cons b bs ih =>
    have hb : b.toNat < 256 := b.toNat_lt_size
    rw [leNat_cons, List.length_cons, Nat.pow_succ]
    omega

/-- Decoding the encoder's bytes gives the value back, modulo the field width. -/
theorem leNat_leBytes (w n : Nat) : leNat (leBytes w n) = n % 256 ^ w := by
  induction w generalizing n with
  | zero => simp [Nat.mod_one]
  | succ w ih =>
    have hb : (UInt8.ofNat (n % 256)).toNat = n % 256 :=
      UInt8.toNat_ofNat_of_lt (Nat.mod_lt _ (by decide))
    rw [leBytes_succ, leNat_cons, ih, hb, Nat.pow_succ, Nat.mul_comm _ 256, Nat.mod_mul]

theorem leNat_leBytes_of_lt {w n : Nat} (h : n < 256 ^ w) : leNat (leBytes w n) = n := by
  rw [leNat_leBytes, Nat.mod_eq_of_lt h]

/-! ### Arrays of `uint32_t` -/

/-- The first `count` little-endian `uint32_t`s of a byte string, as `in.read` or
`memcpy` into a `std::vector<uint32_t>` of that size leaves them. -/
def leU32s : Nat → List UInt8 → List UInt32
  | 0, _ => []
  | c + 1, bs => UInt32.ofNat (leNat (bs.take 4)) :: leU32s c (bs.drop 4)

/-- The serialized form of an id array: each id as four little-endian bytes. -/
def encU32s (ids : List UInt32) : List UInt8 :=
  ids.flatMap fun v => leBytes 4 v.toNat

@[simp] theorem length_leU32s (c : Nat) (bs : List UInt8) : (leU32s c bs).length = c := by
  induction c generalizing bs <;> simp [leU32s, *]

@[simp] theorem encU32s_nil : encU32s [] = [] := rfl

@[simp] theorem encU32s_cons (v : UInt32) (ids : List UInt32) :
    encU32s (v :: ids) = leBytes 4 v.toNat ++ encU32s ids := rfl

@[simp] theorem length_encU32s (ids : List UInt32) : (encU32s ids).length = 4 * ids.length := by
  induction ids with
  | nil => rfl
  | cons v ids ih => simp [ih]; omega

@[simp] theorem UInt32.ofNat_toNat (v : UInt32) : UInt32.ofNat v.toNat = v :=
  UInt32.toNat.inj (UInt32.toNat_ofNat_of_lt v.toNat_lt_size)

theorem UInt32.ofNat_leNat_leBytes (v : UInt32) : UInt32.ofNat (leNat (leBytes 4 v.toNat)) = v := by
  apply UInt32.toNat.inj
  rw [leNat_leBytes_of_lt v.toNat_lt_size, UInt32.toNat_ofNat_of_lt v.toNat_lt_size]

/-- Reading `c` ids out of an encoded array gives its first `c` ids, whatever follows. -/
theorem leU32s_encU32s_append (ids : List UInt32) (rest : List UInt8) {c : Nat}
    (hc : c ≤ ids.length) : leU32s c (encU32s ids ++ rest) = ids.take c := by
  induction ids generalizing c with
  | nil => obtain rfl : c = 0 := by simpa using hc
           rfl
  | cons v ids ih =>
    cases c with
    | zero => rfl
    | succ c =>
      have h4 : (leBytes 4 v.toNat).length = 4 := length_leBytes 4 _
      simp only [leU32s, encU32s_cons, List.append_assoc, List.take_succ_cons]
      rw [List.take_append_of_le_length (by omega), List.take_of_length_le (by omega),
        List.drop_append_of_le_length (by omega), List.drop_of_length_le (by omega),
        List.nil_append, UInt32.ofNat_leNat_leBytes, ih (by simpa using hc)]

/-- The first `t` of `c` ids read are the `t` ids read. -/
theorem take_leU32s {t c : Nat} (bs : List UInt8) (h : t ≤ c) : (leU32s c bs).take t = leU32s t bs := by
  induction c generalizing t bs with
  | zero => obtain rfl : t = 0 := by omega
            rfl
  | succ c ih =>
    cases t with
    | zero => rfl
    | succ t => simp only [leU32s, List.take_succ_cons, ih (bs.drop 4) (show t ≤ c by omega)]

/-- `leU32s c` reads only the first `4 * c` bytes. -/
theorem leU32s_take (c : Nat) (bs : List UInt8) : leU32s c (bs.take (4 * c)) = leU32s c bs := by
  induction c generalizing bs with
  | zero => rfl
  | succ c ih =>
    simp only [leU32s, List.take_take, List.drop_take]
    rw [show min 4 (4 * (c + 1)) = 4 by omega, show 4 * (c + 1) - 4 = 4 * c by omega, ih]

/-! ### Files and the stream -/

/-- The bytes of an opened file.  Its size is an `off_t`, hence below `2 ^ 63`. -/
structure File where
  bytes : List UInt8
  length_lt : bytes.length < 2 ^ 63

/-- The file holds `bs` at byte position `pos`. -/
def BytesAt (f : File) (pos : Nat) (bs : List UInt8) : Prop :=
  ∃ pre post, f.bytes = pre ++ bs ++ post ∧ pre.length = pos

/-- `in.read` of an `n`-byte little-endian integer at position `pos`; `none` when the
file ends first. -/
def readLE (f : File) (pos n : Nat) : Option Nat :=
  if pos + n ≤ f.bytes.length then some (leNat ((f.bytes.drop pos).take n)) else none

/-- `in.read` of `count` ids into a `std::vector<uint32_t>` at position `pos`. -/
def readU32s (f : File) (pos count : Nat) : Option (List UInt32) :=
  if pos + 4 * count ≤ f.bytes.length then some (leU32s count (f.bytes.drop pos)) else none

/-- `in.seekg` to absolute position `p` succeeds iff `p` is a non-negative
`std::streamoff`; a target past the end of the file is accepted. -/
def seekOk (p : Nat) : Bool := p < 2 ^ 63

/-- The page buffer read of one 4096-byte page at position `pos`. -/
def readPage (f : File) (pos : Nat) : Option (List UInt8) :=
  if pos + 4096 ≤ f.bytes.length then some ((f.bytes.drop pos).take 4096) else none

/-- `memcpy(dst, sector.data() + a, len)`: the bytes `[a, a + len)` of the page buffer.
A copy outside the buffer is undefined behaviour, and yields `none`. -/
def sectorLoad (sector : List UInt8) (a len : Nat) : Option (List UInt8) :=
  if a + len ≤ sector.length then some ((sector.drop a).take len) else none

/-- An `int32_t` read from four little-endian bytes with value `v < 2 ^ 32`. -/
def toInt32 (v : Nat) : Int := if v < 2 ^ 31 then v else (v : Int) - 2 ^ 32

theorem readLE_eq_none_iff {f : File} {pos n : Nat} :
    readLE f pos n = none ↔ f.bytes.length < pos + n := by
  unfold readLE; split <;> simp <;> omega

theorem readLE_lt {f : File} {pos n v : Nat} (h : readLE f pos n = some v) : v < 256 ^ n := by
  unfold readLE at h
  split at h
  · cases h
    have := leNat_lt ((f.bytes.drop pos).take n)
    rwa [List.length_take, List.length_drop, Nat.min_eq_left (by omega)] at this
  · cases h

theorem readLE_some_le {f : File} {pos n v : Nat} (h : readLE f pos n = some v) :
    pos + n ≤ f.bytes.length := by
  unfold readLE at h
  split at h
  · assumption
  · cases h

theorem BytesAt.le_length {f : File} {pos : Nat} {bs : List UInt8} (h : BytesAt f pos bs) :
    pos + bs.length ≤ f.bytes.length := by
  obtain ⟨pre, post, hf, rfl⟩ := h
  simp [hf]

theorem BytesAt.drop_eq {f : File} {pos : Nat} {bs : List UInt8} (h : BytesAt f pos bs) :
    ∃ post, f.bytes.drop pos = bs ++ post := by
  obtain ⟨pre, post, hf, rfl⟩ := h
  exact ⟨post, by rw [hf, List.append_assoc, List.drop_left' rfl]⟩

theorem BytesAt.take_drop {f : File} {pos : Nat} {bs : List UInt8} (h : BytesAt f pos bs) :
    (f.bytes.drop pos).take bs.length = bs := by
  obtain ⟨post, hp⟩ := h.drop_eq
  rw [hp, List.take_left' rfl]

theorem bytesAt_append {f : File} {pos : Nat} {a b : List UInt8} :
    BytesAt f pos (a ++ b) ↔ BytesAt f pos a ∧ BytesAt f (pos + a.length) b := by
  constructor
  · rintro ⟨pre, post, hf, rfl⟩
    exact ⟨⟨pre, b ++ post, by simp [hf], rfl⟩, ⟨pre ++ a, post, by simp [hf], by simp⟩⟩
  · rintro ⟨⟨pre, post, hf, rfl⟩, ⟨pre', post', hf', hl⟩⟩
    have h1 : f.bytes.drop (pre.length + a.length) = post := by
      rw [hf, List.append_assoc, ← List.drop_drop, List.drop_left' rfl, List.drop_left' rfl]
    have h2 : f.bytes.drop pre'.length = b ++ post' := by
      rw [hf', List.append_assoc, List.drop_left' rfl]
    rw [← hl, h2] at h1
    exact ⟨pre, post', by rw [hf, ← h1]; simp, rfl⟩

theorem readLE_of_bytesAt {f : File} {pos : Nat} {bs : List UInt8} (h : BytesAt f pos bs) :
    readLE f pos bs.length = some (leNat bs) := by
  rw [readLE, if_pos h.le_length, h.take_drop]

/-- A field written by the encoder reads back as its value. -/
theorem readLE_leBytes {f : File} {pos w n : Nat} (h : BytesAt f pos (leBytes w n))
    (hn : n < 256 ^ w) : readLE f pos w = some n := by
  simpa [leNat_leBytes_of_lt hn] using readLE_of_bytesAt h

theorem readU32s_of_bytesAt {f : File} {pos : Nat} {ids : List UInt32} {c : Nat}
    (h : BytesAt f pos (encU32s ids)) (hc : c ≤ ids.length) :
    readU32s f pos c = some (ids.take c) := by
  have hle := h.le_length
  obtain ⟨post, hp⟩ := h.drop_eq
  rw [readU32s, if_pos (by simp at hle; omega), hp, leU32s_encU32s_append _ _ hc]

theorem length_of_readU32s {f : File} {pos c : Nat} {ids : List UInt32}
    (h : readU32s f pos c = some ids) : ids.length = c := by
  unfold readU32s at h
  split at h
  · cases h; simp
  · cases h

theorem readU32s_eq_none_iff {f : File} {pos c : Nat} :
    readU32s f pos c = none ↔ f.bytes.length < pos + 4 * c := by
  unfold readU32s; split <;> simp <;> omega

end Pipeann
