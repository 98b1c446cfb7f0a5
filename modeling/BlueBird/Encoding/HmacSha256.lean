import BlueBird.Encoding.KeyedHash
import BlueBird.Encoding.Sha256

namespace BlueBird

open Sha256 (Ctx)

/-- `bb_hmac_sha256_ctx` -/
structure HmacCtx where
  inner : Ctx
  outerPrimed : Ctx

namespace Hmac

/-- `key_block`, of 64 bytes that were zero; a long key is hashed into it. -/
def keyBlock (key : Bytes) : Bytes :=
  let written := if key.length > 64 then sha256 key else key
  written ++ (List.replicate 64 0).drop written.length

/-- `bb_hmac_sha256_init` -/
def init (key : Bytes) : HmacCtx where
  inner := Sha256.update Sha256.init ((keyBlock key).map (· ^^^ 0x36))
  outerPrimed := Sha256.update Sha256.init ((keyBlock key).map (· ^^^ 0x5c))

/-- `bb_hmac_sha256_update` -/
def update (ctx : HmacCtx) (data : Bytes) : HmacCtx := { ctx with inner := Sha256.update ctx.inner data }

/-- `bb_hmac_sha256_final` -/
def final (ctx : HmacCtx) : Bytes :=
  let innerDigest := Sha256.final ctx.inner
  Sha256.final (Sha256.update ctx.outerPrimed innerDigest)

end Hmac

/-- `bb_hmac_sha256` -/
def hmacSha256 (key data : Bytes) : Bytes := Hmac.final (Hmac.update (Hmac.init key) data)

namespace Hmac

theorem foldl_update (ctx : HmacCtx) (pieces : List Bytes) : pieces.foldl update ctx = update ctx pieces.flatten := by
  have inner : ∀ ctx : HmacCtx, pieces.foldl update ctx = { ctx with inner := pieces.foldl Sha256.update ctx.inner } := by
    induction pieces with
    | nil => exact fun _ => rfl
    | cons piece pieces ih => exact fun ctx => ih (update ctx piece)
  rw [inner, Sha256.foldl_update]
  rfl

theorem update_update (ctx : HmacCtx) (data later : Bytes) : update (update ctx data) later = update ctx (data ++ later) := by
  unfold update
  rw [Sha256.update_update]

theorem keyBlock_eq (key : Bytes) : keyBlock key = KeyedHash.blockKey SecureHash.digest 64 key := by
  unfold keyBlock KeyedHash.blockKey
  dsimp only
  rw [sha256_eq_digest, List.drop_replicate]

end Hmac

theorem hmacSha256_eq_hmac (key data : Bytes) : hmacSha256 key data = KeyedHash.hmac SecureHash.digest 64 key data := by
  have inner : Sha256.final (Hmac.update (Hmac.init key) data).inner =
      SecureHash.digest ((KeyedHash.blockKey SecureHash.digest 64 key).map (· ^^^ 0x36) ++ data) := by
    rw [← Hmac.keyBlock_eq, ← Sha256.final_update, ← Sha256.update_update]
    rfl
  unfold hmacSha256 Hmac.final
  rw [inner]
  show Sha256.final (Sha256.update (Sha256.update Sha256.init ((Hmac.keyBlock key).map (· ^^^ 0x5c))) _) = _
  rw [Sha256.update_update, Sha256.final_update, Hmac.keyBlock_eq]
  rfl

/-- The pieces in which a message is handed over do not matter to either digest, and both are the standard's. -/
theorem incremental_digests (key : Bytes) (pieces : List Bytes) :
    Sha256.final (pieces.foldl Sha256.update Sha256.init) = sha256 pieces.flatten ∧
      sha256 pieces.flatten = SecureHash.digest pieces.flatten ∧
      Hmac.final (pieces.foldl Hmac.update (Hmac.init key)) = hmacSha256 key pieces.flatten ∧
      hmacSha256 key pieces.flatten = KeyedHash.hmac SecureHash.digest 64 key pieces.flatten := by
  refine ⟨?_, sha256_eq_digest _, ?_, hmacSha256_eq_hmac key _⟩
  · rw [Sha256.foldl_update]
    rfl
  · rw [Hmac.foldl_update]
    rfl

end BlueBird
