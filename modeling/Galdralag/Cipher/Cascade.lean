import Galdralag.Cipher.Layers

/-!
# Cascades

A cascade encrypts a message with the layers of a profile, inner layer first, and decrypts in the
opposite order. In the built-in profiles a MAC is appended between two layers. Encryption takes the
MAC together with the layer it follows, decryption together with the layer it precedes; regrouped
(`encryptFrom_eq`, `decryptFrom_eq`), both run over one list of stages, and what holds of every
stage holds of the cascade.
-/

set_option linter.all false

namespace Galdralag.Cipher

open Fallible (except_bind_of_ok)

/-- Longest plaintext of a cascade. -/
def maxCascadePlaintext : ℕ := 8192

/-- Output of a cascade. -/
structure CascadeCiphertext where
  profileName : String
  ciphertext : Vec maxCt
  deriving DecidableEq

/-! ## Integrity between two layers -/

section Mac

variable (P : Primitives) (ikm : Bytes) (suiteId : UInt16) (afterLayer : UInt8)

def cessInterLayerMacKey : Except CipherProfileError (Block 32) :=
  hkdfBlake3Okm32 P ikm (cessBlake3IntegrityGapInfo suiteId afterLayer)

def cessInterLayerHmacMessage (body : Bytes) : Except CipherProfileError (Vec maxCt) :=
  pushAll maxCt .payloadTooLarge (cessBlake3IntegrityInfo suiteId ++ body)

def cessAppendInterLayerMac (body : Vec maxCt) : Except CipherProfileError (Vec maxCt) := do
  let key ← cessInterLayerMacKey P ikm suiteId afterLayer
  let msg ← cessInterLayerHmacMessage suiteId body.toBytes
  let mac := hmacBlake3 P key.toBytes msg.toBytes
  pushAll maxCt .payloadTooLarge (body.toBytes ++ mac.toBytes)

def cessVerifyAndStripInterLayerMac (buf : Vec maxCt) : Except CipherProfileError (Vec maxCt) := do
  let _ ← ensure (32 ≤ buf.length) .authenticationFailed
  let body := buf.toBytes.take (buf.length - 32)
  let key ← cessInterLayerMacKey P ikm suiteId afterLayer
  let msg ← cessInterLayerHmacMessage suiteId body
  let expect := hmacBlake3 P key.toBytes msg.toBytes
  let mac ← toArray 32 .authenticationFailed (buf.toBytes.drop (buf.length - 32))
  let _ ← ensure (expect = mac) .authenticationFailed
  pushAll maxCt .authenticationFailed body

end Mac

/-! ## The loops -/

section Loops

variable (P : Primitives) (profile : CipherProfile) (ikm aad : Bytes)

/-- The associated data that layer `i` receives: that of the caller at the outermost layer. -/
def layerAad (i : ℕ) : Bytes := if i + 1 = profile.layers.length then aad else []

/-- Encryption with layer `i`, under the labels of its index. -/
def encryptAt (i : ℕ) (layer : CipherLayer) (current : Vec maxCt) :
    Except CipherProfileError (Vec maxCt) := do
  let kinfo ← layerKeyInfo profile.name layer (.ofNat i)
  let ninfo ← layerNonceInfo profile.name layer (.ofNat i)
  encryptLayer P ikm (suiteIdForProfileName profile.name) layer (layerAad profile aad i)
    current.toBytes kinfo.toBytes ninfo.toBytes (.ofNat i)

/-- The MAC behind layer `i`, unless that is the outermost one. -/
def appendMacAfter (i : ℕ) (current : Vec maxCt) : Except CipherProfileError (Vec maxCt) :=
  match suiteIdForProfileName profile.name with
  | some sid =>
    if i + 1 < profile.layers.length then cessAppendInterLayerMac P ikm sid (.ofNat i) current
    else pure current
  | none => pure current

/-- One round of the encryption loop. -/
def encryptStep (i : ℕ) (layer : CipherLayer) (current : Vec maxCt) :
    Except CipherProfileError (Vec maxCt) := do
  let current ← encryptAt P profile ikm aad i layer current
  appendMacAfter P profile ikm i current

/-- Decryption with layer `idx`, under the labels of its index. -/
def decryptAt (idx : ℕ) (layer : CipherLayer) (buf : Vec maxCt) :
    Except CipherProfileError (Vec maxCt) := do
  let kinfo ← orFail (layerKeyInfo profile.name layer (.ofNat idx)) .authenticationFailed
  let ninfo ← orFail (layerNonceInfo profile.name layer (.ofNat idx)) .authenticationFailed
  decryptLayer P ikm (suiteIdForProfileName profile.name) layer (layerAad profile aad idx)
    buf.toBytes kinfo.toBytes ninfo.toBytes (.ofNat idx)

/-- The MAC in front of layer `idx`, unless that is the innermost one. -/
def stripMacBefore (idx : ℕ) (buf : Vec maxCt) : Except CipherProfileError (Vec maxCt) :=
  match suiteIdForProfileName profile.name with
  | some sid =>
    if 0 < idx then cessVerifyAndStripInterLayerMac P ikm sid (.ofNat (idx - 1)) buf else pure buf
  | none => pure buf

/-- One round of the decryption loop. -/
def decryptStep (idx : ℕ) (layer : CipherLayer) (buf : Vec maxCt) :
    Except CipherProfileError (Vec maxCt) := do
  let buf ← decryptAt P profile ikm aad idx layer buf
  stripMacBefore P profile ikm idx buf

/-- The encryption loop over the layers from index `i` on. -/
def encryptFrom : ℕ → List CipherLayer → Vec maxCt → Except CipherProfileError (Vec maxCt)
  | _, [], current => pure current
  | i, layer :: layers, current => do
    let current ← encryptStep P profile ikm aad i layer current
    encryptFrom (i + 1) layers current

/-- The decryption loop from the last layer down to index `idx`. -/
def decryptFrom : ℕ → List CipherLayer → Vec maxCt → Except CipherProfileError (Vec maxCt)
  | _, [], buf => pure buf
  | idx, layer :: layers, buf => do
    let buf ← decryptFrom (idx + 1) layers buf
    decryptStep P profile ikm aad idx layer buf

def cascadeForwardEncrypt (plaintext : Bytes) (lastLayerExclusive : ℕ) :
    Except CipherProfileError (Vec maxCt) := do
  let _ ← ensure (plaintext.length ≤ maxCascadePlaintext) .payloadTooLarge
  let cessSid := suiteIdForProfileName profile.name
  let _ ← ensure (cessSid ≠ none ∨ ikm.length = 32) .keyDerivation
  let _ ← ensure (lastLayerExclusive ≤ profile.layers.length) (.cipherError 0)
  let current ← pushAll maxCt .payloadTooLarge plaintext
  encryptFrom P profile ikm aad 0 (profile.layers.take lastLayerExclusive) current

/-- Bytes fed to the outermost layer. -/
def cascadeBlobBeforeOutermostEncrypt (plaintext : Bytes) :
    Except CipherProfileError (Vec maxCt) := do
  let n := profile.layers.length
  let _ ← ensure (2 ≤ n) (.cipherError 0)
  cascadeForwardEncrypt P profile ikm aad plaintext (n - 1)

/-- Encrypt with the profile cascade, inner layers first. -/
def cascadeEncrypt (plaintext : Bytes) : Except CipherProfileError CascadeCiphertext := do
  let current ← cascadeForwardEncrypt P profile ikm aad plaintext profile.layers.length
  let _ ← pushStr maxName profile.name .invalidProfileName
  pure { profileName := profile.name, ciphertext := current }

/-- Decrypt a cascade ciphertext, outer layer first. -/
def cascadeDecrypt (ct : CascadeCiphertext) : Except CipherProfileError (Vec maxCt) := do
  let _ ← ensure (ct.profileName = profile.name) .profileMismatch
  let cessSid := suiteIdForProfileName profile.name
  let _ ← ensure (cessSid ≠ none ∨ ikm.length = 32) .authenticationFailed
  decryptFrom P profile ikm aad 0 profile.layers ct.ciphertext

end Loops

/-! ## The MAC as a stage -/

section Mac

variable {P : Primitives} {ikm : Bytes} {suiteId : UInt16} {afterLayer : UInt8}

theorem hkdfBlake3Okm32_ok (P : Primitives) (ikm info : Bytes) :
    ∃ key, hkdfBlake3Okm32 P ikm info = .ok key :=
  ⟨_, toArray_of_length (length_hkdfBlake3 P ikm [] info 32)⟩

/-- Appending and stripping both say that the buffer is a body followed by its MAC. -/
theorem mac_eq_ok (P : Primitives) (ikm : Bytes) (suiteId : UInt16) (afterLayer : UInt8) :
    ∃ tag : Bytes → Block 32, ∀ body buf : Vec maxCt,
      (cessAppendInterLayerMac P ikm suiteId afterLayer body = .ok buf ↔
        buf.toBytes = tagged tag body.toBytes) ∧
      (cessVerifyAndStripInterLayerMac P ikm suiteId afterLayer buf = .ok body ↔
        buf.toBytes = tagged tag body.toBytes) := by
  obtain ⟨key, hkey⟩ := hkdfBlake3Okm32_ok P ikm (cessBlake3IntegrityGapInfo suiteId afterLayer)
  refine ⟨fun b ↦ hmacBlake3 P key.toBytes (cessBlake3IntegrityInfo suiteId ++ b),
    fun body buf ↦ ?_⟩
  -- a buffer that holds the MAC has room for the label
  have hfits : buf.toBytes.length = body.toBytes.length + 32 →
      (cessBlake3IntegrityInfo suiteId ++ body.toBytes).length ≤ maxCt := by
    intro hlen
    have hbuf : buf.toBytes.length ≤ maxCt := buf.length_le
    rw [List.length_append, length_cessBlake3IntegrityInfo]
    omega
  constructor
  · rw [cessAppendInterLayerMac, cessInterLayerMacKey, hkey, ok_bind]
    simp only [cessInterLayerHmacMessage, except_bind_eq_ok, pushAll_eq_ok]
    constructor
    · rintro ⟨msg, hmsg, hbuf⟩
      rw [← hbuf, tagged, hmsg]
    · intro hbuf
      have hlen : buf.toBytes.length = body.toBytes.length + 32 := by rw [hbuf, length_tagged]
      exact ⟨⟨_, hfits hlen⟩, rfl, hbuf.symm⟩
  · simp only [cessVerifyAndStripInterLayerMac, ensure_bind_eq_ok]
    rw [cessInterLayerMacKey, hkey, ok_bind]
    simp only [cessInterLayerHmacMessage, except_bind_eq_ok, pushAll_eq_ok]
    constructor
    · rintro ⟨hge, msg, hmsg, mac, hmac, _, hexpect, hbody⟩
      have hexpect := ensure_eq_ok.mp hexpect
      rw [toArray] at hmac
      split_ifs at hmac with hlen
      obtain rfl := Except.ok.inj hmac
      have hdrop := congrArg Block.toBytes hexpect
      rw [← hmsg, hbody] at hdrop
      calc buf.toBytes = buf.toBytes.take (buf.length - 32) ++ buf.toBytes.drop (buf.length - 32) :=
            (List.take_append_drop _ _).symm
        _ = _ := by
          rw [hbody, tagged, hdrop]
          rfl
    · intro hbuf
      have hlen : buf.toBytes.length = body.toBytes.length + 32 := by rw [hbuf, length_tagged]
      have hcut : buf.length - 32 = body.toBytes.length := by rw [Vec.length, hlen]; omega
      have htake : buf.toBytes.take (buf.length - 32) = body.toBytes := by
        rw [hcut, hbuf, tagged, List.take_left]
      have hdrop : buf.toBytes.drop (buf.length - 32) =
          (hmacBlake3 P key.toBytes (cessBlake3IntegrityInfo suiteId ++ body.toBytes)).toBytes := by
        rw [hcut, hbuf, tagged, List.drop_left]
      refine ⟨?_, ⟨_, hfits hlen⟩, ?_, _, ?_, (), ensure_eq_ok.mpr rfl, htake⟩
      · rw [Vec.length, hlen]
        omega
      · rw [htake]
        rfl
      · rw [hdrop]
        exact toArray_of_length (Block.length_toBytes _)

/-- The MAC of a layer as a stage. -/
def macStage (P : Primitives) (ikm : Bytes) (suiteId : UInt16) (afterLayer : UInt8) :
    Stage CipherProfileError (Vec maxCt) where
  wrap := cessAppendInterLayerMac P ikm suiteId afterLayer
  unwrap := cessVerifyAndStripInterLayerMac P ikm suiteId afterLayer

theorem macStage_recovers :
    Recovers (macStage P ikm suiteId afterLayer).wrap
      (macStage P ikm suiteId afterLayer).unwrap := by
  obtain ⟨tag, htag⟩ := mac_eq_ok P ikm suiteId afterLayer
  exact fun body buf h ↦ (htag body buf).2.mpr ((htag body buf).1.mp h)

theorem macStage_exact :
    Recovers (macStage P ikm suiteId afterLayer).unwrap
      (macStage P ikm suiteId afterLayer).wrap := by
  obtain ⟨tag, htag⟩ := mac_eq_ok P ikm suiteId afterLayer
  exact fun buf body h ↦ (htag body buf).1.mpr ((htag body buf).2.mp h)

theorem macStage_grows :
    Grows Vec.length (macStage P ikm suiteId afterLayer).wrap (fun n ↦ n + 32 ≤ maxCt) 32 := by
  obtain ⟨tag, htag⟩ := mac_eq_ok P ikm suiteId afterLayer
  constructor
  · intro body hbody
    have hlen : (tagged tag body.toBytes).length = body.length + 32 := length_tagged tag _
    exact ⟨⟨tagged tag body.toBytes, by rwa [hlen]⟩, (htag _ _).1.mpr rfl, hlen⟩
  · intro body hbody
    cases hr : (macStage P ikm suiteId afterLayer).wrap body with
    | error e => exact ⟨e, rfl⟩
    | ok buf =>
      have hbuf := (htag body buf).1.mp hr
      have hlen : buf.length = body.length + 32 := by rw [Vec.length, hbuf, length_tagged]; rfl
      rw [← hlen] at hbody
      exact absurd buf.length_le hbody

end Mac

/-! ## The layers as stages -/

section Layers

variable (P : Primitives) (ikm : Bytes)

theorem cessEtmKeys_ok (sid : UInt16) (cipher : CessInnerEtM64Cipher) (layerIdx : UInt8) :
    ∃ k, cessEtmKeys P ikm sid cipher layerIdx = .ok k := by
  obtain ⟨nonce, hnonce⟩ := hkdfBlake3Okm32_ok P ikm (cessInnerCascadeLayerNonceInfo sid layerIdx)
  have hokm := toArray_of_length (e := CipherProfileError.keyDerivation)
    (length_hkdfBlake3 P ikm [] (cessInnerCascadeEtm64Info sid layerIdx cipher) 64)
  exact ⟨_, except_bind_eq_ok.mpr ⟨_, hokm, except_bind_eq_ok.mpr ⟨nonce, hnonce, rfl⟩⟩⟩

theorem cessChachaKeys_ok (sid : UInt16) (layerIdx : UInt8) :
    ∃ k, cessChachaKeys P ikm sid layerIdx = .ok k := by
  obtain ⟨key, hkey⟩ := hkdfBlake3Okm32_ok P ikm (cessInnerCascadeLayerKeyInfo sid layerIdx)
  obtain ⟨nonce, hnonce⟩ := hkdfBlake3Okm32_ok P ikm (cessInnerCascadeLayerNonceInfo sid layerIdx)
  exact ⟨_, except_bind_eq_ok.mpr ⟨key, hkey, except_bind_eq_ok.mpr ⟨nonce, hnonce, rfl⟩⟩⟩

theorem cessAesKeys_ok (sid : UInt16) (layerIdx : UInt8) :
    ∃ k, cessAesKeys P ikm sid layerIdx = .ok k := by
  obtain ⟨key, hkey⟩ := hkdfBlake3Okm32_ok P ikm (cessInnerCascadeLayerKeyInfo sid layerIdx)
  have hnonce := toArray_of_length (e := CipherProfileError.keyDerivation)
    (length_hkdfBlake3 P ikm [] (cessInnerCascadeLayerNonceInfo sid layerIdx) 12)
  exact ⟨_, except_bind_eq_ok.mpr ⟨key, hkey, except_bind_eq_ok.mpr ⟨_, hnonce, rfl⟩⟩⟩

variable {P ikm} {aad : Bytes}

/-- In a registered suite, both directions of a layer use the same keys. -/
theorem layerStage_cess (P : Primitives) (ikm aad : Bytes) (sid : UInt16) (layer : CipherLayer)
    (idx : UInt8) :
    ∃ s, IsLayerStage P aad layer s ∧
      (∀ d : Vec maxCt, encryptLayerCess P ikm sid layer aad d.toBytes idx = s.wrap d) ∧
      ∀ d : Vec maxCt, decryptLayerCess P ikm sid layer aad d.toBytes idx = s.unwrap d := by
  cases layer with
  | aes256Gcm =>
    obtain ⟨k, hk⟩ := cessAesKeys_ok P ikm sid idx
    exact ⟨_, .aes k.1 k.2 idx, fun d ↦ except_bind_of_ok hk,
      fun d ↦ except_bind_of_ok (orFail_eq_ok.mpr hk)⟩
  | chaCha20Poly1305 =>
    obtain ⟨k, hk⟩ := cessChachaKeys_ok P ikm sid idx
    exact ⟨_, .chacha k.1 k.2 idx, fun d ↦ except_bind_of_ok hk,
      fun d ↦ except_bind_of_ok (orFail_eq_ok.mpr hk)⟩
  | twofish256 =>
    obtain ⟨k, hk⟩ := cessEtmKeys_ok P ikm sid .twofish256 idx
    exact ⟨_, .etm .twofish256 P.twofish k.1 k.2 idx rfl, fun d ↦ except_bind_of_ok hk,
      fun d ↦ except_bind_of_ok (orFail_eq_ok.mpr hk)⟩
  | serpent256 =>
    obtain ⟨k, hk⟩ := cessEtmKeys_ok P ikm sid .serpent256 idx
    exact ⟨_, .etm .serpent256 P.serpent k.1 k.2 idx rfl, fun d ↦ except_bind_of_ok hk,
      fun d ↦ except_bind_of_ok (orFail_eq_ok.mpr hk)⟩
  | camellia256 =>
    obtain ⟨k, hk⟩ := cessEtmKeys_ok P ikm sid .camellia256 idx
    exact ⟨_, .etm .camellia256 P.camellia k.1 k.2 idx rfl, fun d ↦ except_bind_of_ok hk,
      fun d ↦ except_bind_of_ok (orFail_eq_ok.mpr hk)⟩

/-- **Both directions of a layer use the same keys**, in custom profiles when the input key material
has 32 bytes. -/
theorem layerStage_exists (P : Primitives) {ikm : Bytes} (aad : Bytes) {suiteId : Option UInt16}
    (hikm : suiteId ≠ none ∨ ikm.length = 32) (layer : CipherLayer) (keyInfo nonceInfo : Bytes)
    (idx : UInt8) :
    ∃ s, IsLayerStage P aad layer s ∧
      (∀ d : Vec maxCt,
        encryptLayer P ikm suiteId layer aad d.toBytes keyInfo nonceInfo idx = s.wrap d) ∧
      ∀ d : Vec maxCt,
        decryptLayer P ikm suiteId layer aad d.toBytes keyInfo nonceInfo idx = s.unwrap d := by
  cases suiteId with
  | some sid => exact layerStage_cess P ikm aad sid layer idx
  | none =>
    have hprk := toArray_of_length (e := CipherProfileError.keyDerivation)
      (hikm.resolve_left fun h ↦ h rfl)
    have hprk' := orFail_eq_ok (e := CipherProfileError.authenticationFailed).mpr hprk
    cases layer with
    | aes256Gcm =>
      exact ⟨_, .aes _ _ 0, fun d ↦ except_bind_of_ok hprk, fun d ↦ except_bind_of_ok hprk'⟩
    | chaCha20Poly1305 =>
      exact ⟨_, .chacha _ _ idx, fun d ↦ except_bind_of_ok hprk, fun d ↦ except_bind_of_ok hprk'⟩
    | twofish256 =>
      exact ⟨_, .etm .twofish256 P.twofish _ _ idx rfl, fun d ↦ except_bind_of_ok hprk,
        fun d ↦ except_bind_of_ok hprk'⟩
    | serpent256 =>
      exact ⟨_, .etm .serpent256 P.serpent _ _ idx rfl, fun d ↦ except_bind_of_ok hprk,
        fun d ↦ except_bind_of_ok hprk'⟩
    | camellia256 =>
      exact ⟨_, .etm .camellia256 P.camellia _ _ idx rfl, fun d ↦ except_bind_of_ok hprk,
        fun d ↦ except_bind_of_ok hprk'⟩

end Layers

/-! ## The cascade as a stack of stages -/

section Stack

variable (P : Primitives) (profile : CipherProfile) (ikm aad : Bytes)

/-- The MAC in front of layer `i` as a stage. -/
def macBefore (i : ℕ) : Stage CipherProfileError (Vec maxCt) :=
  match suiteIdForProfileName profile.name with
  | some sid => if 0 < i then macStage P ikm sid (.ofNat (i - 1)) else .idle
  | none => .idle

/-- Layer `i` as a stage. -/
def layerStage (i : ℕ) (layer : CipherLayer) : Stage CipherProfileError (Vec maxCt) where
  wrap := encryptAt P profile ikm aad i layer
  unwrap := decryptAt P profile ikm aad i layer

/-- The stages from index `i` on, each layer with the MAC in front of it. -/
def stagesFrom : ℕ → List CipherLayer → List (Stage CipherProfileError (Vec maxCt))
  | _, [] => []
  | i, layer :: layers =>
    (macBefore P profile ikm i).andThen (layerStage P profile ikm aad i layer) ::
      stagesFrom (i + 1) layers

variable {P profile ikm aad}

theorem forall_stagesFrom {Q : Stage CipherProfileError (Vec maxCt) → Prop}
    (h : ∀ i layer, Q ((macBefore P profile ikm i).andThen (layerStage P profile ikm aad i layer)))
    (i : ℕ) (layers : List CipherLayer) : ∀ s ∈ stagesFrom P profile ikm aad i layers, Q s := by
  induction layers generalizing i with
  | nil => exact fun s hs ↦ absurd hs List.not_mem_nil
  | cons layer layers ih =>
    intro s hs
    rcases List.mem_cons.mp hs with rfl | hs
    · exact h i layer
    · exact ih (i + 1) s hs

theorem stripMacBefore_eq (i : ℕ) :
    stripMacBefore P profile ikm i = (macBefore P profile ikm i).unwrap := by
  funext buf
  rw [stripMacBefore, macBefore]
  cases suiteIdForProfileName profile.name with
  | none => rfl
  | some sid =>
    dsimp only
    split_ifs <;> rfl

/-- In front of the next layer stands the MAC behind this one. -/
theorem appendMacAfter_eq {i : ℕ} (hi : i + 1 < profile.layers.length) :
    appendMacAfter P profile ikm i = (macBefore P profile ikm (i + 1)).wrap := by
  funext buf
  rw [appendMacAfter, macBefore]
  cases suiteIdForProfileName profile.name with
  | none => rfl
  | some sid =>
    dsimp only
    rw [if_pos hi, if_pos (Nat.succ_pos i)]
    rfl

/-- Behind the outermost layer stands no MAC. -/
theorem appendMacAfter_last {i : ℕ} (hi : profile.layers.length ≤ i + 1) (buf : Vec maxCt) :
    appendMacAfter P profile ikm i buf = .ok buf := by
  rw [appendMacAfter]
  cases suiteIdForProfileName profile.name with
  | none => rfl
  | some sid =>
    dsimp only
    rw [if_neg (by omega)]
    rfl

/-- **The decryption loop** runs back through the stages. -/
theorem decryptFrom_eq (i : ℕ) (layers : List CipherLayer) :
    decryptFrom P profile ikm aad i layers = unwrapAll (stagesFrom P profile ikm aad i layers) := by
  induction layers generalizing i with
  | nil => rfl
  | cons layer layers ih =>
    funext buf
    rw [decryptFrom, stagesFrom, unwrapAll, ih]
    congr 1
    funext buf'
    rw [decryptStep, stripMacBefore_eq]
    rfl

/-- **The encryption loop** runs through the stages: the MAC that it appends behind a layer is the
one in front of the next. -/
theorem encryptFrom_eq {i : ℕ} {layers : List CipherLayer} (hne : layers ≠ [])
    (hi : i + layers.length = profile.layers.length) (current : Vec maxCt) :
    ((macBefore P profile ikm i).wrap current >>= encryptFrom P profile ikm aad i layers) =
      wrapAll (stagesFrom P profile ikm aad i layers) current := by
  induction layers generalizing i current with
  | nil => exact absurd rfl hne
  | cons layer layers ih =>
    rw [stagesFrom, wrapAll, Stage.andThen, bind_assoc]
    congr 1
    funext buf
    rw [encryptFrom, encryptStep, bind_assoc]
    congr 1
    funext buf'
    rw [List.length_cons] at hi
    cases layers with
    | nil =>
      rw [appendMacAfter_last (by rw [List.length_nil] at hi; omega)]
      rfl
    | cons next layers =>
      rw [List.length_cons] at hi
      rw [appendMacAfter_eq (by omega)]
      exact ih (List.cons_ne_nil _ _) (by rw [List.length_cons]; omega) buf'

theorem layers_ne_nil (profile : CipherProfile) : profile.layers ≠ [] := by
  have h := profile.layers_valid
  simp only [checkLayers, ensure_bind_eq_ok] at h
  exact h.1

/-- Both loops of a cascade run over one list of stages. -/
theorem encryptFrom_zero (current : Vec maxCt) :
    encryptFrom P profile ikm aad 0 profile.layers current =
      wrapAll (stagesFrom P profile ikm aad 0 profile.layers) current := by
  have hidle : (macBefore P profile ikm 0).wrap current = .ok current := by
    rw [macBefore]
    cases suiteIdForProfileName profile.name <;> rfl
  rw [← encryptFrom_eq (layers_ne_nil profile) (Nat.zero_add _), hidle, ok_bind]

end Stack

/-! ## What the stages do -/

section Stages

variable {P : Primitives} {profile : CipherProfile} {ikm aad : Bytes}

theorem name_length_le (profile : CipherProfile) : profile.name.utf8ByteSize ≤ maxName := by
  have h := profile.name_valid
  simp only [validateProfileName, ensure_bind_eq_ok] at h
  exact h.2.1

/-- A layer of a cascade is a layer under some keys. -/
theorem isLayerStage (P : Primitives) (aad : Bytes)
    (hikm : suiteIdForProfileName profile.name ≠ none ∨ ikm.length = 32) (i : ℕ)
    (layer : CipherLayer) :
    IsLayerStage P (layerAad profile aad i) layer (layerStage P profile ikm aad i layer) := by
  have hname := name_length_le profile
  obtain ⟨kinfo, hkinfo⟩ : ∃ info, layerKeyInfo profile.name layer (.ofNat i) = .ok info :=
    buildLayerInfo_ok hname (by decide) layer _
  obtain ⟨ninfo, hninfo⟩ : ∃ info, layerNonceInfo profile.name layer (.ofNat i) = .ok info :=
    buildLayerInfo_ok hname (by decide) layer _
  obtain ⟨⟨wrap, unwrap⟩, hs, hwrap, hunwrap⟩ := layerStage_exists P (layerAad profile aad i) hikm
    layer kinfo.toBytes ninfo.toBytes (.ofNat i)
  obtain rfl : encryptAt P profile ikm aad i layer = wrap := by
    funext d
    exact ((except_bind_of_ok hkinfo).trans (except_bind_of_ok hninfo)).trans (hwrap d)
  obtain rfl : decryptAt P profile ikm aad i layer = unwrap := by
    funext d
    exact ((except_bind_of_ok (orFail_eq_ok.mpr hkinfo)).trans
      (except_bind_of_ok (orFail_eq_ok.mpr hninfo))).trans (hunwrap d)
  exact hs

theorem macBefore_cases (P : Primitives) (profile : CipherProfile) (ikm : Bytes) (i : ℕ) :
    macBefore P profile ikm i = .idle ∨
      ∃ sid, suiteIdForProfileName profile.name = some sid ∧ 0 < i ∧
        macBefore P profile ikm i = macStage P ikm sid (.ofNat (i - 1)) := by
  rw [macBefore]
  cases suiteIdForProfileName profile.name with
  | none => exact .inl rfl
  | some sid =>
    by_cases hi : 0 < i
    · exact .inr ⟨sid, rfl, hi, if_pos hi⟩
    · exact .inl (if_neg hi)

theorem macBefore_recovers (i : ℕ) :
    Recovers (macBefore P profile ikm i).wrap (macBefore P profile ikm i).unwrap := by
  rcases macBefore_cases P profile ikm i with h | ⟨sid, -, -, h⟩
  · rw [h]
    exact .pure
  · rw [h]
    exact macStage_recovers

theorem macBefore_exact (i : ℕ) :
    Recovers (macBefore P profile ikm i).unwrap (macBefore P profile ikm i).wrap := by
  rcases macBefore_cases P profile ikm i with h | ⟨sid, -, -, h⟩
  · rw [h]
    exact .pure
  · rw [h]
    exact macStage_exact

/-- What a cascade encrypts it decrypts. -/
theorem encryptFrom_recovers (hP : AeadRecovers P)
    (hikm : suiteIdForProfileName profile.name ≠ none ∨ ikm.length = 32) :
    Recovers (encryptFrom P profile ikm aad 0 profile.layers)
      (decryptFrom P profile ikm aad 0 profile.layers) := by
  have hstages : ∀ s ∈ stagesFrom P profile ikm aad 0 profile.layers, Recovers s.wrap s.unwrap :=
    forall_stagesFrom (fun i layer ↦
      (macBefore_recovers i).comp ((isLayerStage P aad hikm i layer).recovers hP)) 0 profile.layers
  intro a b hab
  rw [encryptFrom_zero] at hab
  rw [decryptFrom_eq]
  exact wrapAll_recovers hstages a b hab

/-- What a cascade decrypts it would have encrypted. -/
theorem decryptFrom_exact (hP : AeadExact P)
    (hikm : suiteIdForProfileName profile.name ≠ none ∨ ikm.length = 32) :
    Recovers (decryptFrom P profile ikm aad 0 profile.layers)
      (encryptFrom P profile ikm aad 0 profile.layers) := by
  have hstages : ∀ s ∈ stagesFrom P profile ikm aad 0 profile.layers, Recovers s.unwrap s.wrap :=
    forall_stagesFrom (fun i layer ↦
      ((isLayerStage P aad hikm i layer).exact hP).comp (macBefore_exact i)) 0 profile.layers
  intro b a hba
  rw [decryptFrom_eq] at hba
  rw [encryptFrom_zero]
  exact unwrapAll_recovers hstages b a hba

end Stages

/-! ## Lengths along a cascade -/

/-- The bytes that the MAC behind layer `i` adds. -/
def macLength (profile : CipherProfile) (i : ℕ) : ℕ :=
  if suiteIdForProfileName profile.name ≠ none ∧ i + 1 < profile.layers.length then 32 else 0

/-- Each of the layers from index `i` on accepts what reaches it when a message of the given length
reaches the first of them. -/
def LayersAccept (profile : CipherProfile) : ℕ → List CipherLayer → ℕ → Prop
  | _, [], _ => True
  | i, layer :: layers, length =>
    layer.Accepts length ∧
      LayersAccept profile (i + 1) layers (length + (layer.overhead + macLength profile i))

/-- The bytes that the layers from index `i` on add. -/
def addedFrom (profile : CipherProfile) : ℕ → List CipherLayer → ℕ
  | _, [] => 0
  | i, layer :: layers =>
    layer.overhead + macLength profile i + addedFrom profile (i + 1) layers

section Lengths

variable {P : Primitives} {profile : CipherProfile} {ikm aad : Bytes}

theorem CipherLayer.Accepts.le {layer : CipherLayer} {length : ℕ} (h : layer.Accepts length) :
    length + layer.overhead ≤ maxCt := by
  cases layer with
  | aes256Gcm => exact h
  | chaCha20Poly1305 => exact Nat.le_trans (Nat.add_le_add_right h 16) (by decide)
  | _ => exact Nat.le_trans (Nat.add_le_add_right h 32) (by decide)

/-- Behind a layer there is either no MAC or one of 32 bytes, and then a further layer. -/
theorem appendMacAfter_cases (P : Primitives) (profile : CipherProfile) (ikm : Bytes) (i : ℕ) :
    (appendMacAfter P profile ikm i = pure ∧ macLength profile i = 0) ∨
      ∃ sid, appendMacAfter P profile ikm i = (macStage P ikm sid (.ofNat i)).wrap ∧
        macLength profile i = 32 ∧ i + 1 < profile.layers.length := by
  cases hsid : suiteIdForProfileName profile.name with
  | none =>
    refine .inl ⟨funext fun buf ↦ ?_, if_neg fun h ↦ h.1 hsid⟩
    rw [appendMacAfter, hsid]
  | some sid =>
    by_cases hi : i + 1 < profile.layers.length
    · refine .inr ⟨sid, funext fun buf ↦ ?_, if_pos ⟨?_, hi⟩, hi⟩
      · rw [appendMacAfter, hsid]
        exact if_pos hi
      · rw [hsid]
        rintro ⟨⟩
    · refine .inl ⟨funext fun buf ↦ ?_, if_neg fun h ↦ hi h.2⟩
      exact appendMacAfter_last (Nat.not_lt.mp hi) buf

theorem appendMacAfter_grows (P : Primitives) (profile : CipherProfile) (ikm : Bytes) (i : ℕ) :
    Grows Vec.length (appendMacAfter P profile ikm i) (fun n ↦ n + macLength profile i ≤ maxCt)
      (macLength profile i) := by
  rcases appendMacAfter_cases P profile ikm i with ⟨h, hmac⟩ | ⟨sid, h, hmac, -⟩
  · rw [h, hmac]
    exact Grows.pure.congr fun buf ↦ iff_of_true trivial buf.length_le
  · rw [h, hmac]
    exact macStage_grows

/-- **The encryption loop** succeeds exactly if every layer accepts what reaches it. -/
theorem encryptFrom_grows (hP : AeadLaws P) {aad : Bytes} (haad : aad.length ≤ maxAad)
    (hikm : suiteIdForProfileName profile.name ≠ none ∨ ikm.length = 32) {i : ℕ}
    {layers : List CipherLayer} (hi : i + layers.length = profile.layers.length) :
    Grows Vec.length (encryptFrom P profile ikm aad i layers) (LayersAccept profile i layers)
      (addedFrom profile i layers) := by
  induction layers generalizing i with
  | nil => exact Grows.pure
  | cons layer layers ih =>
    have hlayerAad : (layerAad profile aad i).length ≤ maxAad := by
      rw [layerAad]
      split_ifs
      · exact haad
      · exact Nat.zero_le _
    have hlayer := (isLayerStage P aad hikm i layer).grows hP hlayerAad
    rw [List.length_cons] at hi
    have hrest := ih (i := i + 1) (by omega)
    have hstep := hlayer.comp (appendMacAfter_grows P profile ikm i)
    refine (hstep.comp hrest).congr fun buf ↦ ?_
    constructor
    · rintro ⟨⟨haccepts, -⟩, hnext⟩
      exact ⟨haccepts, hnext⟩
    · rintro ⟨haccepts, hnext⟩
      refine ⟨⟨haccepts, ?_⟩, hnext⟩
      -- where a MAC is appended, there is a next layer, and it accepts the MAC too
      rcases appendMacAfter_cases P profile ikm i with ⟨-, hmac⟩ | ⟨sid, -, hmac, hlt⟩
      · rw [hmac]
        exact haccepts.le
      · cases layers with
        | nil =>
          rw [List.length_nil] at hi
          omega
        | cons next layers =>
          have hle := hnext.1.le
          omega

end Lengths

instance : (layer : CipherLayer) → (length : ℕ) → Decidable (layer.Accepts length)
  | .aes256Gcm, length => inferInstanceAs (Decidable (length + 16 ≤ maxCt))
  | .chaCha20Poly1305, length => inferInstanceAs (Decidable (length ≤ maxPlaintext))
  | .twofish256, length => inferInstanceAs (Decidable (length ≤ maxPlaintext))
  | .serpent256, length => inferInstanceAs (Decidable (length ≤ maxPlaintext))
  | .camellia256, length => inferInstanceAs (Decidable (length ≤ maxPlaintext))

instance decidableLayersAccept (profile : CipherProfile) :
    (i : ℕ) → (layers : List CipherLayer) → (length : ℕ) →
      Decidable (LayersAccept profile i layers length)
  | _, [], _ => .isTrue trivial
  | i, layer :: layers, length =>
    have := decidableLayersAccept profile (i + 1) layers
      (length + (layer.overhead + macLength profile i))
    inferInstanceAs (Decidable (layer.Accepts length ∧
      LayersAccept profile (i + 1) layers (length + (layer.overhead + macLength profile i))))

/-! ## Round trip -/

section Claims

variable {P : Primitives} {profile : CipherProfile} {ikm aad : Bytes}

theorem cascadeEncrypt_eq_ok {plaintext : Bytes} {ct : CascadeCiphertext} :
    cascadeEncrypt P profile ikm aad plaintext = .ok ct ↔
      plaintext.length ≤ maxCascadePlaintext ∧
      (suiteIdForProfileName profile.name ≠ none ∨ ikm.length = 32) ∧
      (∃ current : Vec maxCt, plaintext = current.toBytes ∧
        encryptFrom P profile ikm aad 0 profile.layers current = .ok ct.ciphertext) ∧
      ct.profileName = profile.name := by
  simp only [cascadeEncrypt, cascadeForwardEncrypt, except_bind_eq_ok, pushAll_eq_ok, pushStr,
    List.take_length]
  constructor
  · rintro ⟨buf, ⟨_, hlen, _, hikm, _, -, current, hcurrent, hbuf⟩, _, -, hct⟩
    obtain rfl := Except.ok.inj hct
    exact ⟨ensure_eq_ok.mp hlen, ensure_eq_ok.mp hikm, ⟨current, hcurrent, hbuf⟩, rfl⟩
  · rintro ⟨hlen, hikm, ⟨current, hcurrent, hbuf⟩, hname⟩
    refine ⟨ct.ciphertext, ⟨(), ensure_eq_ok.mpr hlen, (), ensure_eq_ok.mpr hikm, (),
      ensure_eq_ok.mpr (Nat.le_refl _), current, hcurrent, hbuf⟩, (),
      ensure_eq_ok.mpr (name_length_le profile), ?_⟩
    rw [← hname]
    rfl

theorem cascadeDecrypt_eq_ok {ct : CascadeCiphertext} {p : Vec maxCt} :
    cascadeDecrypt P profile ikm aad ct = .ok p ↔
      ct.profileName = profile.name ∧
      (suiteIdForProfileName profile.name ≠ none ∨ ikm.length = 32) ∧
      decryptFrom P profile ikm aad 0 profile.layers ct.ciphertext = .ok p := by
  simp only [cascadeDecrypt, ensure_bind_eq_ok]

theorem cascadeEncrypt_isOk_iff (hP : AeadLaws P) (haad : aad.length ≤ maxAad)
    (hikm : suiteIdForProfileName profile.name ≠ none ∨ ikm.length = 32) {plaintext : Bytes}
    (hlen : plaintext.length ≤ maxCascadePlaintext) :
    (∃ ct, cascadeEncrypt P profile ikm aad plaintext = .ok ct) ↔
      LayersAccept profile 0 profile.layers plaintext.length := by
  have hgrows := encryptFrom_grows hP haad hikm (Nat.zero_add profile.layers.length)
  have hfit : plaintext.length ≤ maxCt := Nat.le_trans hlen (by decide)
  constructor
  · rintro ⟨ct, hct⟩
    obtain ⟨-, -, ⟨current, rfl, hbuf⟩, -⟩ := cascadeEncrypt_eq_ok.mp hct
    by_contra hno
    obtain ⟨e, he⟩ := hgrows.refuses current hno
    rw [hbuf] at he
    cases he
  · intro haccept
    obtain ⟨buf, hbuf, -⟩ := hgrows.works ⟨plaintext, hfit⟩ haccept
    exact ⟨⟨profile.name, buf⟩,
      cascadeEncrypt_eq_ok.mpr ⟨hlen, hikm, ⟨⟨plaintext, hfit⟩, rfl, hbuf⟩, rfl⟩⟩

/-- A ciphertext is as much longer as the layers and the MACs make it. -/
theorem length_of_cascadeEncrypt (hP : AeadLaws P) (haad : aad.length ≤ maxAad) {plaintext : Bytes}
    {ct : CascadeCiphertext} (h : cascadeEncrypt P profile ikm aad plaintext = .ok ct) :
    ct.ciphertext.length = plaintext.length + addedFrom profile 0 profile.layers := by
  obtain ⟨-, hikm, ⟨current, rfl, hbuf⟩, -⟩ := cascadeEncrypt_eq_ok.mp h
  exact (encryptFrom_grows hP haad hikm (Nat.zero_add profile.layers.length)).size_eq hbuf

/-- What a cascade encrypted, it decrypts. -/
theorem cascadeDecrypt_of_encrypt (hP : AeadRecovers P) {plaintext : Bytes} {ct : CascadeCiphertext}
    (h : cascadeEncrypt P profile ikm aad plaintext = .ok ct) :
    ∃ p, cascadeDecrypt P profile ikm aad ct = .ok p ∧ p.toBytes = plaintext := by
  obtain ⟨-, hikm, ⟨current, rfl, hbuf⟩, hname⟩ := cascadeEncrypt_eq_ok.mp h
  have hback := encryptFrom_recovers hP hikm _ _ hbuf
  exact ⟨current, cascadeDecrypt_eq_ok.mpr ⟨hname, hikm, hback⟩, rfl⟩

/-- **The round trip of a cascade**: a plaintext within the documented bound is encrypted, and the
ciphertext decrypted to it, exactly if every layer accepts what reaches it. All layers but
AES-256-GCM accept at most 8192 bytes, and what reaches a layer is the plaintext with the tags of
the layers before it and the MACs between them. -/
theorem cascade_round_trip_iff (hP : AeadLaws P) (hrecovers : AeadRecovers P)
    (haad : aad.length ≤ maxAad)
    (hikm : suiteIdForProfileName profile.name ≠ none ∨ ikm.length = 32) {plaintext : Bytes}
    (hlen : plaintext.length ≤ maxCascadePlaintext) :
    (∃ ct p, cascadeEncrypt P profile ikm aad plaintext = .ok ct ∧
      cascadeDecrypt P profile ikm aad ct = .ok p ∧ p.toBytes = plaintext) ↔
      LayersAccept profile 0 profile.layers plaintext.length := by
  rw [← cascadeEncrypt_isOk_iff hP haad hikm hlen]
  constructor
  · rintro ⟨ct, p, hct, -⟩
    exact ⟨ct, hct⟩
  · rintro ⟨ct, hct⟩
    obtain ⟨p, hp, heq⟩ := cascadeDecrypt_of_encrypt hrecovers hct
    exact ⟨ct, p, hct, hp, heq⟩

end Claims

/-- Primitives whose keys have no effect. -/
def benchPrimitives : Primitives where
  blake3 _ := .zero 32
  hmacSha256 _ _ := .zero 32
  hkdfExpand _ _ n := .zero n
  aesGcmEncrypt _ _ _ data := some (tagged (fun _ ↦ .zero 16) data)
  aesGcmDecrypt _ _ _ ct := untag (fun _ ↦ .zero 16) ct
  chachaEncryptDetached _ _ _ data := some (data, .zero 16)
  chachaDecryptDetached _ _ _ body tag := if tag = .zero 16 then some body else none
  twofish _ _ := .zero 16
  serpent _ _ := .zero 16
  camellia _ _ := .zero 16

theorem benchPrimitives_laws : AeadLaws benchPrimitives where
  aes_accepts _ _ _ data _ _ := ⟨tagged (fun _ ↦ .zero 16) data, rfl⟩
  aes_length h := by
    obtain rfl := Option.some.inj h
    exact length_tagged _ _
  chacha_accepts _ _ _ data _ _ := ⟨(data, .zero 16), rfl⟩
  chacha_length h := by
    obtain rfl := Option.some.inj h
    rfl

theorem benchPrimitives_recovers : AeadRecovers benchPrimitives where
  aes h := untag_eq_some.mpr (Option.some.inj h).symm
  chacha h := by
    cases h
    rfl

theorem benchPrimitives_exact : AeadExact benchPrimitives where
  aes {key nonce aad data ct} h := by
    change untag (fun _ ↦ .zero 16) ct = some data at h
    exact congrArg some (untag_eq_some.mp h).symm
  chacha {key nonce aad data body tag} h := by
    change (if tag = .zero 16 then some body else none) = some data at h
    split_ifs at h with htag
    obtain rfl := Option.some.inj h
    rw [htag]
    rfl

/-- The built-in profile of two layers. -/
def builtinConservative : CipherProfile where
  name := "conservative"
  description := "ChaCha inner, Serpent outer (CESS suite_id 0x0003); BP256r1"
  curve := .brainpoolP256r1
  layers := [.chaCha20Poly1305, .serpent256]
  shamir := .none
  ephemeralEcdh := true
  name_valid := by decide
  description_le := by decide
  layers_valid := by decide
  shamir_valid := by decide

theorem cascade_round_trip_bench :
    ∃ ct p, cascadeEncrypt benchPrimitives builtinConservative [] [] [1, 2, 3] = .ok ct ∧
      cascadeDecrypt benchPrimitives builtinConservative [] [] ct = .ok p ∧
      p.toBytes = [1, 2, 3] :=
  (cascade_round_trip_iff benchPrimitives_laws benchPrimitives_recovers (Nat.zero_le _)
    (.inl (by decide)) (by decide)).mpr (by decide)

/-- The built-in profile of two layers refuses a plaintext of 8145 bytes: with a tag and a MAC
behind it, it is too long for the second layer. -/
theorem cascade_refuses_plaintext :
    (List.replicate 8145 (0 : UInt8)).length ≤ maxCascadePlaintext ∧
      ¬ ∃ ct, cascadeEncrypt benchPrimitives builtinConservative [] [] (List.replicate 8145 0) =
        .ok ct := by
  have hlen : (List.replicate 8145 (0 : UInt8)).length = 8145 := List.length_replicate
  have hle : (List.replicate 8145 (0 : UInt8)).length ≤ maxCascadePlaintext := by
    rw [hlen]
    decide
  refine ⟨hle, ?_⟩
  rw [cascadeEncrypt_isOk_iff benchPrimitives_laws (Nat.zero_le _) (.inl (by decide)) hle, hlen]
  decide

section Claims

variable {P : Primitives} {profile : CipherProfile} {ikm aad : Bytes}

/-! ## Canonical ciphertexts -/

theorem decryptAt_length_le (hikm : suiteIdForProfileName profile.name ≠ none ∨ ikm.length = 32)
    {i : ℕ} {layer : CipherLayer} (hlayer : layer ≠ .aes256Gcm) {buf d : Vec maxCt}
    (h : decryptAt P profile ikm aad i layer buf = .ok d) : d.length ≤ maxPlaintext :=
  (isLayerStage P aad hikm i layer).unwrap_length_le hlayer h

theorem decryptAt_aes_length (hP : AeadLaws P) (hexact : AeadExact P)
    (hikm : suiteIdForProfileName profile.name ≠ none ∨ ikm.length = 32) {i : ℕ} {buf d : Vec maxCt}
    (h : decryptAt P profile ikm aad i .aes256Gcm buf = .ok d) : buf.length = d.length + 16 := by
  have hs := isLayerStage P aad hikm i .aes256Gcm
  exact hs.aes_length hP (hs.exact hexact _ _ h)

theorem stripMacBefore_length_le {i : ℕ} {buf d : Vec maxCt}
    (h : stripMacBefore P profile ikm i buf = .ok d) : d.length ≤ buf.length := by
  rw [stripMacBefore_eq] at h
  rcases macBefore_cases P profile ikm i with hidle | ⟨sid, -, -, hmac⟩
  · rw [hidle] at h
    obtain rfl : buf = d := Except.ok.inj h
    exact Nat.le_refl _
  · rw [hmac] at h
    have hlen := macStage_grows.size_eq (macStage_exact _ _ h)
    omega

theorem stripMacBefore_zero (buf : Vec maxCt) : stripMacBefore P profile ikm 0 buf = .ok buf := by
  rw [stripMacBefore]
  cases suiteIdForProfileName profile.name <;> rfl

/-- Below the innermost layer, every cascade but that of AES-256-GCM alone has a bounded message. -/
theorem decryptFrom_length_le (hP : AeadLaws P) (hexact : AeadExact P)
    (hikm : suiteIdForProfileName profile.name ≠ none ∨ ikm.length = 32)
    (hlayers : profile.layers ≠ [.aes256Gcm]) {ct p : Vec maxCt}
    (h : decryptFrom P profile ikm aad 0 profile.layers ct = .ok p) :
    p.length ≤ maxCascadePlaintext := by
  have hvalid := profile.layers_valid
  simp only [checkLayers, ensure_bind_eq_ok, ensure_eq_ok] at hvalid
  obtain ⟨hne, -, hnodup⟩ := hvalid
  generalize hls : profile.layers = layers at *
  cases layers with
  | nil => exact absurd rfl hne
  | cons layer rest =>
    obtain ⟨buf, hbuf, hstep⟩ := except_bind_eq_ok.mp h
    obtain ⟨q, hq, hstrip⟩ := except_bind_eq_ok.mp hstep
    rw [stripMacBefore_zero] at hstrip
    obtain rfl : q = p := Except.ok.inj hstrip
    by_cases hlayer : layer = .aes256Gcm
    · subst hlayer
      cases rest with
      | nil => exact absurd rfl hlayers
      | cons next rest =>
        -- the next layer is another cipher, which bounds what reaches this one
        have hnext : next ≠ .aes256Gcm := by
          rintro rfl
          exact (List.nodup_cons.mp hnodup).1 List.mem_cons_self
        obtain ⟨buf', -, hstep'⟩ := except_bind_eq_ok.mp hbuf
        obtain ⟨q', hq', hstrip'⟩ := except_bind_eq_ok.mp hstep'
        have hle := decryptAt_length_le hikm hnext hq'
        have hle' := stripMacBefore_length_le hstrip'
        have hlen := decryptAt_aes_length hP hexact hikm hq
        rw [maxPlaintext] at hle
        rw [maxCascadePlaintext]
        omega
    · exact decryptAt_length_le hikm hlayer hq

theorem decryptFrom_aes_length (hP : AeadLaws P) (hexact : AeadExact P)
    (hikm : suiteIdForProfileName profile.name ≠ none ∨ ikm.length = 32) {ct p : Vec maxCt}
    (h : decryptFrom P profile ikm aad 0 [.aes256Gcm] ct = .ok p) : ct.length = p.length + 16 := by
  obtain ⟨buf, hbuf, hstep⟩ := except_bind_eq_ok.mp h
  obtain rfl : ct = buf := Except.ok.inj hbuf
  obtain ⟨q, hq, hstrip⟩ := except_bind_eq_ok.mp hstep
  rw [stripMacBefore_zero] at hstrip
  obtain rfl : q = p := Except.ok.inj hstrip
  exact decryptAt_aes_length hP hexact hikm hq

/-- **Accepted ciphertexts are canonical** but for one kind: decryption does not bound the
plaintext, so a profile of AES-256-GCM alone accepts ciphertexts of more than 8192 plaintext bytes,
which encryption refuses to make. -/
theorem cascade_canonical_iff (hP : AeadLaws P) (hexact : AeadExact P) {ct : CascadeCiphertext}
    {p : Vec maxCt} (hdec : cascadeDecrypt P profile ikm aad ct = .ok p) :
    cascadeEncrypt P profile ikm aad p.toBytes = .ok ct ↔
      (profile.layers = [.aes256Gcm] → ct.ciphertext.length ≤ maxCascadePlaintext + 16) := by
  obtain ⟨hname, hikm, hback⟩ := cascadeDecrypt_eq_ok.mp hdec
  have hforth := decryptFrom_exact hexact hikm _ _ hback
  constructor
  · intro henc hlayers
    have hlen := (cascadeEncrypt_eq_ok.mp henc).1
    rw [hlayers] at hback
    rw [decryptFrom_aes_length hP hexact hikm hback]
    exact Nat.add_le_add_right hlen 16
  · intro hbound
    refine cascadeEncrypt_eq_ok.mpr ⟨?_, hikm, ⟨p, rfl, hforth⟩, hname⟩
    by_cases hlayers : profile.layers = [.aes256Gcm]
    · have hle := hbound hlayers
      rw [hlayers] at hback
      rw [decryptFrom_aes_length hP hexact hikm hback] at hle
      exact Nat.le_of_add_le_add_right hle
    · exact decryptFrom_length_le hP hexact hikm hlayers hback

end Claims

theorem cascade_canonical_bench :
    cascadeEncrypt benchPrimitives builtinConservative [] [] [] =
      .ok ⟨"conservative", ⟨List.replicate 80 0, by decide⟩⟩ :=
  (cascade_canonical_iff benchPrimitives_laws benchPrimitives_exact
    (p := ⟨[], by decide⟩) (by decide +kernel)).mpr (by decide)

/-- A custom profile of AES-256-GCM alone. -/
def aesProfile : CipherProfile where
  name := "aes"
  description := ""
  curve := .brainpoolP256r1
  layers := [.aes256Gcm]
  shamir := .none
  ephemeralEcdh := true
  name_valid := by decide
  description_le := by decide
  layers_valid := by decide
  shamir_valid := by decide

/-- A buffer of `n` zeros. -/
def zeros (n : ℕ) (h : n ≤ maxCt) : Vec maxCt :=
  ⟨List.replicate n 0, Nat.le_trans (Nat.le_of_eq List.length_replicate) h⟩

theorem decryptFrom_zeros {n : ℕ} (h : n ≤ maxCt) (h' : n + 16 ≤ maxCt) :
    decryptFrom benchPrimitives aesProfile (List.replicate 32 0) [] 0 [.aes256Gcm]
      (zeros (n + 16) h') = .ok (zeros n h) := by
  have hikm : suiteIdForProfileName aesProfile.name ≠ none ∨
      (List.replicate 32 (0 : UInt8)).length = 32 := .inr (by decide)
  obtain ⟨key, nonce, hunwrap⟩ :=
    (isLayerStage benchPrimitives [] hikm 0 .aes256Gcm).aes_unwrap
  have hopen : decryptAt benchPrimitives aesProfile (List.replicate 32 0) [] 0 .aes256Gcm
      (zeros (n + 16) h') = .ok (zeros n h) := by
    have htag : (zeros (n + 16) h').toBytes = tagged (fun _ ↦ .zero 16) (zeros n h).toBytes :=
      List.replicate_append_replicate.symm
    have hdec : untag (fun _ ↦ .zero 16) (zeros (n + 16) h').toBytes = some (zeros n h).toBytes :=
      untag_eq_some.mpr htag
    exact (hunwrap _ _).mpr hdec
  exact except_bind_eq_ok.mpr ⟨_, rfl, except_bind_eq_ok.mpr ⟨_, hopen, stripMacBefore_zero _⟩⟩

/-- A ciphertext of 8193 plaintext bytes is accepted, and encryption refuses its plaintext. -/
theorem cascade_accepts_more :
    cascadeDecrypt benchPrimitives aesProfile (List.replicate 32 0) []
        ⟨"aes", zeros (8193 + 16) (by decide)⟩ = .ok (zeros 8193 (by decide)) ∧
      cascadeEncrypt benchPrimitives aesProfile (List.replicate 32 0) [] (List.replicate 8193 0) =
        .error .payloadTooLarge := by
  have hlen : (List.replicate 8193 (0 : UInt8)).length = 8193 := List.length_replicate
  constructor
  · have hdec := decryptFrom_zeros (n := 8193) (by decide) (by decide)
    exact cascadeDecrypt_eq_ok.mpr ⟨rfl, .inr (by decide), hdec⟩
  · have hlong : ¬ (List.replicate 8193 (0 : UInt8)).length ≤ maxCascadePlaintext := by
      rw [hlen]
      decide
    have hensure : ensure (ε := CipherProfileError)
        ((List.replicate 8193 (0 : UInt8)).length ≤ maxCascadePlaintext) .payloadTooLarge =
          .error .payloadTooLarge := if_neg hlong
    rw [cascadeEncrypt, cascadeForwardEncrypt, hensure]
    rfl

end Galdralag.Cipher
