import ThreeXNode.Library.Base64
import ThreeXNode.Library.Texts
import ThreeXNode.Service.Ports

namespace ThreeXNode.Service.NodeTokens
open Library

/-! # Tokens of nodes at rest -/

abbrev Text := List Char

abbrev Key := List UInt8

inductive TokenError where
  | unknownMode (mode : Text)
  | emptyKeyID
  | delimiterInKeyID
  | noKeys
  | keyDecode
  | keyLength (length : Nat)
  | activeAbsent (id : Text)
  | unsupportedScheme (head : Text)
  | missingKeyID
  | noKey (id : Text)
  | tokenDecode
  | tooShort
  | authenticationFailed
  | refusing (cause : TokenError)
  | node (id : Nat) (cause : TokenError)
  deriving DecidableEq

/-- AES-GCM with a nonce and additional data; the nonce is not part of what is sealed. -/
structure Cipher where
  gcmSeal : Key → List UInt8 → Text → Text → List UInt8
  gcmOpen : Key → List UInt8 → List UInt8 → Text → Option Text

/-! ## Base64 -/

def base64Symbols (last : List Char) : List Char :=
  "ABCDEFGHIJKLMNOPQRSTUVWXYZabcdefghijklmnopqrstuvwxyz0123456789".toList ++ last

def symbolOf (symbols : List Char) (i : Fin 64) : Char := symbols.getD i.val 'A'

def valueOf (symbols : List Char) (c : Char) : Option (Fin 64) := (List.finRange 64).find? fun i => symbolOf symbols i = c

def urlAlphabet : Alphabet Char where
  symbol := symbolOf (base64Symbols ['-', '_'])
  value := valueOf (base64Symbols ['-', '_'])
  value_symbol := by decide +kernel

def stdAlphabet : Alphabet Char where
  symbol := symbolOf (base64Symbols ['+', '/'])
  value := valueOf (base64Symbols ['+', '/'])
  value_symbol := by decide +kernel

def unbroken (text : Text) : Text := text.filter fun c => c ≠ '\r' ∧ c ≠ '\n'

def rawURLDecode (text : Text) : Option (List UInt8) := urlAlphabet.decode (unbroken text)

/-! ## Keys -/

def keyLen : Nat := 32

def nonceLen : Nat := 12

structure Keyring where
  activeID : Text
  keys : List (Text × Key)

def Keyring.key? (ring : Keyring) (id : Text) : Option Key := (ring.keys.find? (·.1 = id)).map (·.2)

def validateKeyID (id : Text) : Except TokenError Unit :=
  if id = [] then .error .emptyKeyID else if ':' ∈ id then .error .delimiterInKeyID else .ok ()

def decodeKey (b64 : Text) : Except TokenError Key :=
  let text := unbroken (Ports.trimSpace b64)
  match (stdAlphabet.decodePadded '=' text).or (stdAlphabet.decode text) with
  | none => .error .keyDecode
  | some raw => if raw.length = keyLen then .ok raw else .error (.keyLength raw.length)

def parseKey (entry : Text × Text) : Except TokenError (Text × Key) := do
  validateKeyID entry.1
  let raw ← decodeKey entry.2
  return (entry.1, raw)

def parseKeyring (active : Text) (b64keys : List (Text × Text)) : Except TokenError Keyring := do
  validateKeyID active
  if b64keys = [] then .error .noKeys
  else
    let keys ← b64keys.mapM parseKey
    let ring : Keyring := ⟨active, keys⟩
    if (ring.key? active).isSome then return ring else .error (.activeAbsent active)

def envKeySource (value : Text) : Except TokenError Keyring :=
  let v := Ports.trimSpace value
  if v = [] then .error .noKeys else parseKeyring "env".toList [("env".toList, v)]

/-! ## The codec -/

inductive Mode where
  | off
  | migration
  | required
  deriving DecidableEq

def parseMode (s : String) : Except TokenError Mode :=
  let mode := String.ofList ((Ports.trimSpace s.toList).map lowerRune)
  if mode = "" ∨ mode = "off" then .ok .off
  else if mode = "migration" then .ok .migration
  else if mode = "required" then .ok .required
  else .error (.unknownMode s.toList)

/-- There is a ring exactly where encryption is on. -/
inductive Codec where
  | off
  | on (ring : Keyring)

def newCodec (mode : Mode) (ring : Keyring) : Except TokenError Codec :=
  if mode = .off then .ok .off
  else if ring.keys = [] then .error .noKeys
  else if (ring.key? ring.activeID).isSome then .ok (.on ring)
  else .error (.activeAbsent ring.activeID)

def initNodeTokenCrypto (setting : String) (file env : Except TokenError Keyring) : Except TokenError Codec := do
  let mode ← parseMode setting
  if mode = .off then return .off
  else
    let ring ← match file with
      | .ok ring => .ok ring
      | .error _ => env
    newCodec mode ring

def encPrefix : Text := "enc:".toList

def encScheme : Text := "enc:v1:".toList

def isEncrypted (stored : Text) : Bool := encPrefix.isPrefixOf stored

def cutPrefix (lead stored : Text) : Option Text := if lead.isPrefixOf stored then some (stored.drop lead.length) else none

def cutColon (text : Text) : Option (Text × Text) :=
  if ':' ∈ text then some (text.takeWhile (· ≠ ':'), (text.dropWhile (· ≠ ':')).drop 1) else none

def aad (nodeID : Nat) : Text := "nodes/api_token/".toList ++ (toString nodeID).toList

section Codec

variable (gcm : Cipher)

def openBlob (key : Key) (bound b64 : Text) : Except TokenError Text :=
  match rawURLDecode b64 with
  | none => .error .tokenDecode
  | some blob =>
      if blob.length < nonceLen then .error .tooShort
      else match gcm.gcmOpen key (blob.take nonceLen) (blob.drop nonceLen) bound with
      | none => .error .authenticationFailed
      | some text => .ok text

def Codec.decryptBound (codec : Codec) (bound stored : Text) : Except TokenError Text :=
  match codec with
  | .off => .ok stored
  | .on ring =>
      if isEncrypted stored = false then .ok stored
      else match cutPrefix encScheme stored with
      | none => .error (.unsupportedScheme (stored.take 12))
      | some rest =>
          match cutColon rest with
          | none => .error .missingKeyID
          | some (keyID, b64) =>
              if keyID = [] then .error .missingKeyID
              else match ring.key? keyID with
              | none => .error (.noKey keyID)
              | some key => openBlob gcm key bound b64

def Codec.encryptBound (codec : Codec) (nonce : List UInt8) (bound plaintext : Text) : Except TokenError Text :=
  match codec with
  | .off => .ok plaintext
  | .on ring =>
      if plaintext = [] then .ok plaintext
      else if isEncrypted plaintext then
        match Codec.decryptBound gcm (.on ring) bound plaintext with
        | .error cause => .error (.refusing cause)
        | .ok _ => .ok plaintext
      else match ring.key? ring.activeID with
      | none => .error (.activeAbsent ring.activeID)
      | some key =>
          let blob := nonce ++ gcm.gcmSeal key nonce plaintext bound
          .ok (encScheme ++ ring.activeID ++ ':' :: urlAlphabet.encode blob)

def Codec.encrypt (codec : Codec) (nonce : List UInt8) (nodeID : Nat) (plaintext : Text) : Except TokenError Text :=
  codec.encryptBound gcm nonce (aad nodeID) plaintext

def Codec.decrypt (codec : Codec) (nodeID : Nat) (stored : Text) : Except TokenError Text :=
  (codec.decryptBound gcm (aad nodeID) stored).mapError (.node nodeID)

def Codec.encryptedWithActive (codec : Codec) (stored : Text) : Bool :=
  match codec with
  | .off => false
  | .on ring =>
      isEncrypted stored && match cutPrefix encScheme stored with
      | none => false
      | some rest =>
          match cutColon rest with
          | none => false
          | some (keyID, _) => keyID = ring.activeID

end Codec

/-! ## What the codec keeps -/

def Cipher.Opens (gcm : Cipher) : Prop :=
  ∀ key nonce text bound, gcm.gcmOpen key nonce (gcm.gcmSeal key nonce text bound) bound = some text

structure Keyring.Sound (ring : Keyring) : Prop where
  filled : ring.activeID ≠ []
  plain : ':' ∉ ring.activeID
  active : ∃ key, ring.key? ring.activeID = some key

/-- The keys of one ring are keys of the other. -/
def Keyring.Part (ring whole : Keyring) : Prop := ∀ id key, ring.key? id = some key → whole.key? id = some key

theorem validateKeyID_ok {id : Text} (valid : validateKeyID id = .ok ()) : id ≠ [] ∧ ':' ∉ id := by
  unfold validateKeyID at valid
  split at valid
  · cases valid
  · split at valid
    · cases valid
    · constructor <;> assumption

theorem parseKeyring_sound {active : Text} {b64keys : List (Text × Text)} {ring : Keyring}
    (parsed : parseKeyring active b64keys = .ok ring) : ring.Sound := by
  unfold parseKeyring at parsed
  cases valid : validateKeyID active with
  | error _ => simp [valid, bind, Except.bind] at parsed
  | ok _ =>
      rw [valid] at parsed
      simp only [bind, Except.bind, pure, Except.pure] at parsed
      split at parsed
      · cases parsed
      · split at parsed
        · cases parsed
        · rename_i keys _
          split at parsed
          · rename_i there
            cases parsed
            obtain ⟨filled, plain⟩ := validateKeyID_ok valid
            exact ⟨filled, plain, Option.isSome_iff_exists.mp there⟩
          · cases parsed

def sealedText (id : Text) (blob : List UInt8) : Text := encScheme ++ id ++ ':' :: urlAlphabet.encode blob

theorem isEncrypted_sealedText (id : Text) (blob : List UInt8) : isEncrypted (sealedText id blob) = true := by
  unfold isEncrypted sealedText
  rw [List.isPrefixOf_iff_prefix, List.append_assoc]
  exact (show encPrefix <+: encScheme by decide).trans (List.prefix_append _ _)

theorem cutPrefix_append (lead rest : Text) : cutPrefix lead (lead ++ rest) = some rest := by
  unfold cutPrefix
  rw [if_pos (List.isPrefixOf_iff_prefix.mpr (List.prefix_append _ _)), List.drop_left]

theorem cutColon_append {front back : Text} (plain : ':' ∉ front) : cutColon (front ++ ':' :: back) = some (front, back) := by
  have passed : ∀ c ∈ front, (fun c => decide (c ≠ ':')) c = true := by
    intro c mem
    exact decide_eq_true fun same => plain (same ▸ mem)
  unfold cutColon
  rw [if_pos (List.mem_append_right _ List.mem_cons_self), List.takeWhile_append_of_pos passed,
    List.dropWhile_append_of_pos passed]
  simp

theorem url_unbroken : ∀ i, urlAlphabet.symbol i ≠ '\r' ∧ urlAlphabet.symbol i ≠ '\n' := by decide +kernel

theorem rawURLDecode_encode (blob : List UInt8) : rawURLDecode (urlAlphabet.encode blob) = some blob := by
  have kept : unbroken (urlAlphabet.encode blob) = urlAlphabet.encode blob := by
    refine List.filter_eq_self.mpr fun c mem => ?_
    obtain ⟨i, rfl⟩ := urlAlphabet.mem_encode mem
    exact decide_eq_true (url_unbroken i)
  unfold rawURLDecode
  rw [kept]
  exact urlAlphabet.decode_encode blob

section Laws

variable {gcm : Cipher} {ring whole : Keyring} {bound stored text : Text}

theorem decrypt_sealed (opens : gcm.Opens) {id : Text} (filled : id ≠ []) (plain : ':' ∉ id) {key : Key}
    (known : ring.key? id = some key) {nonce : List UInt8} (length : nonce.length = nonceLen) :
    Codec.decryptBound gcm (.on ring) bound (sealedText id (nonce ++ gcm.gcmSeal key nonce text bound)) = .ok text := by
  have cut : cutPrefix encScheme (sealedText id (nonce ++ gcm.gcmSeal key nonce text bound)) =
      some (id ++ ':' :: urlAlphabet.encode (nonce ++ gcm.gcmSeal key nonce text bound)) := by
    unfold sealedText
    rw [List.append_assoc]
    exact cutPrefix_append _ _
  have long : ¬(nonce ++ gcm.gcmSeal key nonce text bound).length < nonceLen := by
    rw [List.length_append, length]
    omega
  unfold Codec.decryptBound openBlob
  simp only [isEncrypted_sealedText, cut, cutColon_append plain, known, rawURLDecode_encode, if_neg filled, if_neg long]
  rw [← length, List.take_left, List.drop_left, opens]
  rfl

theorem decrypt_cases (gcm : Cipher) (bound stored : Text) :
    (∃ result, ∀ ring, Codec.decryptBound gcm (.on ring) bound stored = result) ∨
      ∃ id opened, ∀ ring, Codec.decryptBound gcm (.on ring) bound stored =
        (ring.key? id).elim (.error (.noKey id)) opened := by
  cases encrypted : isEncrypted stored with
  | false => exact .inl ⟨.ok stored, fun _ => by simp [Codec.decryptBound, encrypted]⟩
  | true =>
      cases scheme : cutPrefix encScheme stored with
      | none => exact .inl ⟨_, fun _ => by simp only [Codec.decryptBound, encrypted, scheme]; rfl⟩
      | some rest =>
          cases parts : cutColon rest with
          | none => exact .inl ⟨.error .missingKeyID, fun _ => by simp [Codec.decryptBound, encrypted, scheme, parts]⟩
          | some part =>
              obtain ⟨id, b64⟩ := part
              by_cases filled : id = []
              · exact .inl ⟨.error .missingKeyID, fun _ => by simp [Codec.decryptBound, encrypted, scheme, parts, filled]⟩
              · refine .inr ⟨id, fun key => openBlob gcm key bound b64, fun ring => ?_⟩
                simp only [Codec.decryptBound, encrypted, scheme, parts, if_neg filled]
                cases ring.key? id <;> rfl

theorem decrypt_whole (part : ring.Part whole) (read : Codec.decryptBound gcm (.on ring) bound stored = .ok text) :
    Codec.decryptBound gcm (.on whole) bound stored = .ok text := by
  obtain ⟨result, all⟩ | ⟨id, opened, all⟩ := decrypt_cases gcm bound stored
  · rw [all] at read ⊢
    exact read
  · rw [all] at read ⊢
    cases known : ring.key? id with
    | none =>
        rw [known] at read
        cases read
    | some key =>
        rw [part id key known]
        rwa [known] at read

theorem decrypt_part (part : ring.Part whole) (read : Codec.decryptBound gcm (.on whole) bound stored = .ok text) :
    Codec.decryptBound gcm (.on ring) bound stored = .ok text ∨
      ∃ id, ring.key? id = none ∧ Codec.decryptBound gcm (.on ring) bound stored = .error (.noKey id) := by
  obtain ⟨result, all⟩ | ⟨id, opened, all⟩ := decrypt_cases gcm bound stored
  · rw [all] at read ⊢
    exact .inl read
  · rw [all] at read ⊢
    cases known : ring.key? id with
    | none => exact .inr ⟨id, known, rfl⟩
    | some key =>
        rw [part id key known] at read
        exact .inl read

theorem encrypt_sealed (sound : ring.Sound) (fresh : isEncrypted text = false) (filled : text ≠ []) (nonce : List UInt8) :
    ∃ key, ring.key? ring.activeID = some key ∧ Codec.encryptBound gcm (.on ring) nonce bound text =
      .ok (sealedText ring.activeID (nonce ++ gcm.gcmSeal key nonce text bound)) := by
  obtain ⟨key, known⟩ := sound.active
  refine ⟨key, known, ?_⟩
  simp only [Codec.encryptBound, if_neg filled, fresh, known]
  rfl

theorem encryptedWithActive_sealed (plain : ':' ∉ ring.activeID) (blob : List UInt8) :
    Codec.encryptedWithActive (.on ring) (sealedText ring.activeID blob) = true := by
  have cut : cutPrefix encScheme (sealedText ring.activeID blob) = some (ring.activeID ++ ':' :: urlAlphabet.encode blob) := by
    unfold sealedText
    rw [List.append_assoc]
    exact cutPrefix_append _ _
  simp [Codec.encryptedWithActive, isEncrypted_sealedText, cut, cutColon_append plain]

theorem decrypt_active (filled : ring.activeID ≠ []) (active : Codec.encryptedWithActive (.on ring) stored = true)
    (bound : Text) : ∃ opened, ∀ other : Keyring, Codec.decryptBound gcm (.on other) bound stored =
      (other.key? ring.activeID).elim (.error (.noKey ring.activeID)) opened := by
  unfold Codec.encryptedWithActive at active
  simp only [Bool.and_eq_true] at active
  obtain ⟨encrypted, active⟩ := active
  cases scheme : cutPrefix encScheme stored with
  | none => simp [scheme] at active
  | some rest =>
      cases parts : cutColon rest with
      | none => simp [scheme, parts] at active
      | some part =>
          obtain ⟨id, b64⟩ := part
          have own : id = ring.activeID := by simpa [scheme, parts] using active
          subst own
          refine ⟨fun key => openBlob gcm key bound b64, fun other => ?_⟩
          simp only [Codec.decryptBound, encrypted, scheme, parts, if_neg filled]
          cases other.key? ring.activeID <;> rfl

end Laws

end ThreeXNode.Service.NodeTokens
