import Gatekeeper.Text.Bytes

namespace Gatekeeper.Cipher.ChaCha20

/-- Four words that are worked on side by side. A quarter round works on the four columns of a state
at once; between two of them the rows are turned so that the diagonals become columns. -/
structure Row where
  w : UInt32
  x : UInt32
  y : UInt32
  z : UInt32

namespace Row

def zipWith (f : UInt32 → UInt32 → UInt32) (r s : Row) : Row :=
  ⟨f r.w s.w, f r.x s.x, f r.y s.y, f r.z s.z⟩

def add : Row → Row → Row := zipWith (· + ·)

def xor : Row → Row → Row := zipWith (· ^^^ ·)

def rotl (r : Row) (n : UInt32) : Row :=
  let turn (a : UInt32) : UInt32 := (a <<< n) ||| (a >>> (32 - n))
  ⟨turn r.w, turn r.x, turn r.y, turn r.z⟩

def turn (r : Row) : Row := ⟨r.x, r.y, r.z, r.w⟩

def bytes (r : Row) : Bytes :=
  Bytes.ofNat 4 r.w.toNat ++ Bytes.ofNat 4 r.x.toNat ++ Bytes.ofNat 4 r.y.toNat ++ Bytes.ofNat 4 r.z.toNat

theorem length_bytes (r : Row) : r.bytes.length = 16 := by simp [bytes, Bytes.length_ofNat]

end Row

structure State where
  a : Row
  b : Row
  c : Row
  d : Row

def quarterRounds (s : State) : State :=
  let a := s.a.add s.b
  let d := (s.d.xor a).rotl 16
  let c := s.c.add d
  let b := (s.b.xor c).rotl 12
  let a := a.add b
  let d := (d.xor a).rotl 8
  let c := c.add d
  let b := (b.xor c).rotl 7
  ⟨a, b, c, d⟩

def doubleRound (s : State) : State :=
  let s := quarterRounds s
  let s := quarterRounds ⟨s.a, s.b.turn, s.c.turn.turn, s.d.turn.turn.turn⟩
  ⟨s.a, s.b.turn.turn.turn, s.c.turn.turn, s.d.turn⟩

def wordAt (bytes : Bytes) (i : Nat) : UInt32 :=
  UInt32.ofNat (Bytes.toNat ((bytes.drop (4 * i)).take 4))

def rowAt (bytes : Bytes) (i : Nat) : Row :=
  ⟨wordAt bytes i, wordAt bytes (i + 1), wordAt bytes (i + 2), wordAt bytes (i + 3)⟩

def start (key nonce : Bytes) (counter : Nat) : State where
  a := ⟨0x61707865, 0x3320646e, 0x79622d32, 0x6b206574⟩
  b := rowAt key 0
  c := rowAt key 4
  d := ⟨UInt32.ofNat counter, wordAt nonce 0, wordAt nonce 1, wordAt nonce 2⟩

def block (key nonce : Bytes) (counter : Nat) : Bytes :=
  let s := start key nonce counter
  let t := (List.range 10).foldl (fun t _ ↦ doubleRound t) s
  (s.a.add t.a).bytes ++ (s.b.add t.b).bytes ++ (s.c.add t.c).bytes ++ (s.d.add t.d).bytes

theorem length_block (key nonce : Bytes) (counter : Nat) : (block key nonce counter).length = 64 := by
  simp [block, Row.length_bytes]

/-- The key stream from block one on, at least `length` bytes of it. -/
def keyStream (key nonce : Bytes) (length : Nat) : Bytes :=
  (List.range ((length + 63) / 64)).flatMap fun i ↦ block key nonce (i + 1)

def overlay (key nonce text : Bytes) : Bytes :=
  text.zipWith (· ^^^ ·) (keyStream key nonce text.length)

theorem length_keyStream (key nonce : Bytes) (length : Nat) :
    (keyStream key nonce length).length = (length + 63) / 64 * 64 := by
  simp only [keyStream, List.length_flatMap, length_block, List.map_const', List.sum_replicate_nat,
    List.length_range]

theorem length_overlay (key nonce text : Bytes) : (overlay key nonce text).length = text.length := by
  have h : text.length ≤ (text.length + 63) / 64 * 64 := by omega
  simp [overlay, length_keyStream, Nat.min_eq_left h]

theorem zipWith_xor_cancel (text stream : Bytes) (h : text.length ≤ stream.length) :
    (text.zipWith (· ^^^ ·) stream).zipWith (· ^^^ ·) stream = text := by
  induction text generalizing stream with
  | nil => rfl
  | cons a as ih =>
    cases stream with
    | nil => simp at h
    | cons b bs =>
      simp only [List.zipWith_cons_cons, ih bs (Nat.le_of_succ_le_succ h), UInt8.xor_assoc,
        UInt8.xor_self, UInt8.xor_zero]

theorem overlay_overlay (key nonce text : Bytes) :
    overlay key nonce (overlay key nonce text) = text := by
  rw [overlay, length_overlay]
  exact zipWith_xor_cancel text _ (by rw [length_keyStream]; omega)

end Gatekeeper.Cipher.ChaCha20
