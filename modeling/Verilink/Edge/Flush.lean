import Verilink.Edge.Decision

/-!
# Decision batches

`buildFlushBatch` hashes the wire form of the pending decisions and names the batch by that hash;
`FlushBatch` is what travels to the control plane.
-/

namespace Verilink.Edge

open Verilink.Framework

/-- The hash function: digests have 32 bytes. -/
structure Sha256 where
  sum : Bytes → Bytes
  length_sum : ∀ message, (sum message).length = 32

def zeroSha : Sha256 := ⟨fun _ => List.replicate 32 0, fun _ => rfl⟩

def hexText (bs : Bytes) : List Char :=
  bs.flatMap fun b => [Nat.digitChar (b.toNat / 16), Nat.digitChar (b.toNat % 16)]

def Sha256.hex (sha : Sha256) (message : Bytes) : List Char := hexText (sha.sum message)

structure FlushBatch where
  batchId : String
  firstWalSeq : Int
  lastWalSeq : Int
  payloadHash : String
  decisions : List Decision

def batchPayload (decisions : List Decision) : Bytes :=
  Json.marshal (.arr (decisions.map decisionWire))

def batchIdText (sum : Bytes) : List Char :=
  hexText (sum.take 4) ++ '-' :: (hexText ((sum.drop 4).take 2) ++ '-' ::
    (hexText ((sum.drop 6).take 2) ++ '-' :: (hexText ((sum.drop 8).take 2) ++ '-' ::
      hexText ((sum.drop 10).take 6))))

/-- `buildFlushBatch` of the decisions `d :: ds`; it is never called without one. -/
def buildFlushBatch (sha : Sha256) (d : Decision) (ds : List Decision) : FlushBatch :=
  let sum := sha.sum (batchPayload (d :: ds))
  { batchId := String.ofList (batchIdText sum)
    firstWalSeq := d.walSeq
    lastWalSeq := (ds.getLast?.getD d).walSeq
    payloadHash := String.ofList (hexText sum)
    decisions := d :: ds }

def FlushBatch.toJson (b : FlushBatch) : Json :=
  .obj [("batch_id", .str b.batchId), ("first_wal_seq", .int b.firstWalSeq),
    ("last_wal_seq", .int b.lastWalSeq), ("payload_hash", .str b.payloadHash),
    ("decisions", .arr (b.decisions.map decisionWire))]

def FlushBatch.body (b : FlushBatch) : Bytes := Json.marshal b.toJson

/-! ## Digests in hexadecimal -/

def isLowerHex (c : Char) : Bool := c.isDigit ∨ ('a' ≤ c ∧ c ≤ 'f')

theorem digitChar_isLowerHex {k : Nat} (h : k < 16) : isLowerHex (Nat.digitChar k) = true := by
  have hall : ∀ k : Fin 16, isLowerHex (Nat.digitChar k) = true := by decide
  exact hall ⟨k, h⟩

theorem hexText_isLowerHex (bs : Bytes) : ∀ c ∈ hexText bs, isLowerHex c = true := by
  intro c hc
  obtain ⟨b, -, hb⟩ := List.mem_flatMap.mp hc
  have hlt : b.toNat < 256 := b.toNat_lt
  simp only [List.mem_cons, List.not_mem_nil, or_false] at hb
  rcases hb with rfl | rfl
  · exact digitChar_isLowerHex (by omega)
  · exact digitChar_isLowerHex (by omega)

@[simp]
theorem length_hexText (bs : Bytes) : (hexText bs).length = 2 * bs.length := by
  induction bs with
  | nil => rfl
  | cons b bs ih =>
    have hcons : (hexText (b :: bs)).length = 2 + (hexText bs).length := by
      simp [hexText]
      omega
    rw [hcons, ih, List.length_cons]
    omega

theorem take_hexText (n : Nat) (bs : Bytes) : (hexText bs).take (2 * n) = hexText (bs.take n) := by
  induction bs generalizing n with
  | nil => simp [hexText]
  | cons b bs ih =>
    cases n with
    | zero => rfl
    | succ n =>
      have hcons : ∀ l, hexText (b :: l) = Nat.digitChar (b.toNat / 16) ::
        Nat.digitChar (b.toNat % 16) :: hexText l := fun l => rfl
      rw [List.take_succ_cons, hcons, hcons, Nat.mul_succ, List.take_succ_cons, List.take_succ_cons, ih]

theorem drop_hexText (n : Nat) (bs : Bytes) : (hexText bs).drop (2 * n) = hexText (bs.drop n) := by
  induction bs generalizing n with
  | nil => simp [hexText]
  | cons b bs ih =>
    cases n with
    | zero => rfl
    | succ n =>
      have hcons : hexText (b :: bs) = Nat.digitChar (b.toNat / 16) ::
        Nat.digitChar (b.toNat % 16) :: hexText bs := rfl
      rw [List.drop_succ_cons, hcons, Nat.mul_succ, List.drop_succ_cons, List.drop_succ_cons, ih]

theorem hexText_injective : Function.Injective hexText := by
  have hdigit : ∀ a b : Fin 16, Nat.digitChar a = Nat.digitChar b → a = b := by decide
  intro a b h
  induction a generalizing b with
  | nil =>
    cases b with
    | nil => rfl
    | cons y ys => cases h
  | cons x xs ih =>
    cases b with
    | nil => cases h
    | cons y ys =>
      obtain ⟨hhigh, hrest⟩ := List.cons.inj h
      obtain ⟨hlow, htail⟩ := List.cons.inj hrest
      have hx := x.toNat_lt
      have hy := y.toNat_lt
      have h₁ := hdigit ⟨x.toNat / 16, by omega⟩ ⟨y.toNat / 16, by omega⟩ hhigh
      have h₂ := hdigit ⟨x.toNat % 16, by omega⟩ ⟨y.toNat % 16, by omega⟩ hlow
      have hxy : x = y := by
        apply UInt8.toNat_inj.mp
        simp only [Fin.mk.injEq] at h₁ h₂
        omega
      rw [hxy, ih htail]

end Verilink.Edge
