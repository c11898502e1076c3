import PacketDial.Lib.Base64
import PacketDial.Lib.Utf16
import PacketDial.Lib.Utf8
import PacketDial.Ui.Text

/-!
# Encrypted texts

`EncryptionService` of `app_flutter/lib/core/encryption_service.dart`. It recognises the texts that
it made by their length and alphabet; any other text counts as plain.
-/

namespace PacketDial.Ui

open PacketDial.Core PacketDial.Lib

/-- `_encrypter` of the package `encrypt`, with the key and the initial vector of the app: the
cipher on bytes, and the two methods on texts that the service calls. `none` is an error that is
thrown. -/
structure Encrypter where
  encryptBytes : List UInt8 → Option (List UInt8)
  decryptBytes : List UInt8 → Option (List UInt8)
  /-- `_encrypter.encrypt(plainText).base64`. -/
  encrypt64 : String → Option String
  /-- `_encrypter.decrypt64`. -/
  decrypt64 : String → Option String

/-- The characters of the pattern in `_looksLikeEncryptedBase64`. -/
def isBase64Char (c : Char) : Bool :=
  ('A' ≤ c && c ≤ 'Z') || ('a' ≤ c && c ≤ 'z') || ('0' ≤ c && c ≤ '9') ||
    c == '+' || c == '/' || c == '='

namespace EncryptionService

/-- `_looksLikeEncryptedBase64` (`encryption_service.dart:40–46`). -/
def looksLikeEncryptedBase64 (value : String) : Bool :=
  let trimmed := (dartTrim value).toList
  let length := (utf16Encode trimmed).length
  if length < 24 ∨ length % 4 ≠ 0 then false
  else trimmed ≠ [] ∧ trimmed.all isBase64Char

/-- `encrypt` (`encryption_service.dart:14–23`). -/
def encrypt (enc : Encrypter) (plainText : String) : String :=
  if plainText = "" then "" else (enc.encrypt64 plainText).getD plainText

/-- `decrypt` (`encryption_service.dart:26–38`). -/
def decrypt (enc : Encrypter) (base64Text : String) : String :=
  if base64Text = "" then ""
  else if !looksLikeEncryptedBase64 base64Text then base64Text
  else (enc.decrypt64 base64Text).getD base64Text

end EncryptionService

/-- `utf8.decode` of Dart takes a leading byte order mark off. -/
def withoutBom (s : String) : String :=
  match s.toList with
  | '\uFEFF' :: rest => String.ofList rest
  | _ => s

/-- The cipher is invertible and makes one or more whole blocks of all bytes. The methods on texts
read and write UTF-8 on one side of it and base64 on the other. -/
structure Encrypter.Sound (enc : Encrypter) : Prop where
  encrypts : ∀ bytes, ∃ blocks, enc.encryptBytes bytes = some blocks ∧ blocks ≠ [] ∧
    16 ∣ blocks.length ∧ enc.decryptBytes blocks = some bytes
  encrypt64_eq : ∀ plainText, enc.encrypt64 plainText =
    (enc.encryptBytes (plainText.toList.flatMap String.utf8EncodeChar)).map fun blocks ↦
      String.ofList (base64Encode blocks)
  decrypt64_eq : ∀ base64Text blocks bytes text, base64Decode base64Text.toList = some blocks →
    enc.decryptBytes blocks = some bytes → decodeUtf8 bytes = some text →
    enc.decrypt64 base64Text = some (withoutBom text)

section Texts

variable {enc : Encrypter} {blocks : List UInt8}

/-- Base64 has nothing that `trim` takes off. -/
theorem isDartWhitespace_base64 (blocks : List UInt8) :
    ∀ c ∈ base64Encode blocks, isDartWhitespace c = false := by
  have hall : ('=' :: base64Alphabet).all (fun c ↦ !isDartWhitespace c) = true := by decide
  intro c hc
  have h := List.all_eq_true.mp hall c (base64Encode_subset blocks c hc)
  simpa using h

/-- Base64 has only characters of the pattern. -/
theorem all_isBase64Char (blocks : List UInt8) : (base64Encode blocks).all isBase64Char = true := by
  have hall : ('=' :: base64Alphabet).all isBase64Char = true := by decide
  rw [List.all_eq_true]
  exact fun c hc ↦ List.all_eq_true.mp hall c (base64Encode_subset blocks c hc)

/-- A character of base64 takes one code unit. -/
theorem length_utf16Encode_base64 (blocks : List UInt8) :
    (utf16Encode (base64Encode blocks)).length = (base64Encode blocks).length := by
  have hall : ('=' :: base64Alphabet).all (fun c ↦ (utf16Char c).length = 1) = true := by decide
  have hone : ∀ c ∈ base64Encode blocks, (utf16Char c).length = 1 := by
    intro c hc
    have h := List.all_eq_true.mp hall c (base64Encode_subset blocks c hc)
    simpa using h
  rw [utf16Encode, List.length_flatMap, List.map_congr_left hone, List.map_const',
    List.sum_replicate_nat, Nat.mul_one]

/-- Base64 of whole blocks looks encrypted. -/
theorem looksLikeEncryptedBase64_blocks (hne : blocks ≠ []) (hdvd : 16 ∣ blocks.length) :
    EncryptionService.looksLikeEncryptedBase64 (String.ofList (base64Encode blocks)) = true := by
  have htrim : (dartTrim (String.ofList (base64Encode blocks))).toList = base64Encode blocks := by
    rw [dartTrim, String.toList_ofList, String.toList_ofList]
    exact (clean_of_forall (isDartWhitespace_base64 blocks)).strip_eq
  have hpos : 0 < blocks.length := List.length_pos_iff.mpr hne
  have hlen := length_base64Encode blocks
  unfold EncryptionService.looksLikeEncryptedBase64
  dsimp only
  rw [htrim, length_utf16Encode_base64, if_neg (by omega)]
  have hbase : base64Encode blocks ≠ [] := List.length_pos_iff.mp (by omega)
  exact decide_eq_true ⟨hbase, all_isBase64Char blocks⟩

/-- An encryption is base64 of one or more whole blocks, from which the text can be decrypted. -/
theorem encrypt_spec (h : enc.Sound) {plainText : String} (hne : plainText ≠ "") :
    ∃ blocks, EncryptionService.encrypt enc plainText = String.ofList (base64Encode blocks) ∧
      blocks ≠ [] ∧ 16 ∣ blocks.length ∧
      enc.decryptBytes blocks = some (plainText.toList.flatMap String.utf8EncodeChar) := by
  obtain ⟨blocks, hblocks, hpos, hdvd, hback⟩ :=
    h.encrypts (plainText.toList.flatMap String.utf8EncodeChar)
  refine ⟨blocks, ?_, hpos, hdvd, hback⟩
  rw [EncryptionService.encrypt, if_neg hne, h.encrypt64_eq, hblocks]
  rfl

/-- What was encrypted is decrypted, but for a leading byte order mark. -/
theorem decrypt_encrypt (h : enc.Sound) (plainText : String) :
    EncryptionService.decrypt enc (EncryptionService.encrypt enc plainText) =
      withoutBom plainText := by
  by_cases hempty : plainText = ""
  · subst hempty
    rfl
  · obtain ⟨blocks, htext, hne, hdvd, hback⟩ := encrypt_spec h hempty
    have hlooks := looksLikeEncryptedBase64_blocks hne hdvd
    have hbase : String.ofList (base64Encode blocks) ≠ "" := by
      intro heq
      rw [heq] at hlooks
      exact absurd hlooks (by decide)
    have hdecrypt : enc.decrypt64 (String.ofList (base64Encode blocks)) =
        some (withoutBom plainText) := by
      apply h.decrypt64_eq _ blocks _ _ ?_ hback
      · rw [decodeUtf8_flatMap, String.ofList_toList]
      · rw [String.toList_ofList, base64Decode_encode]
    rw [htext, EncryptionService.decrypt, if_neg hbase, hlooks, hdecrypt]
    rfl

/-- Only a leading byte order mark is taken off. -/
theorem withoutBom_eq_iff (s : String) : withoutBom s = s ↔ s.toList.head? ≠ some '\uFEFF' := by
  unfold withoutBom
  split
  · next rest hs =>
    apply iff_of_false
    · intro heq
      have hlen := congrArg (fun t : String ↦ t.toList.length) heq
      simp [hs] at hlen
    · simp [hs]
  · next hs =>
    apply iff_of_true rfl
    intro hhead
    obtain ⟨rest, heq⟩ := List.head?_eq_some_iff.mp hhead
    exact hs rest heq

end Texts

section Masks

/-- Bytes, padded to whole blocks as PKCS7 does. -/
def pkcs7Pad (bytes : List UInt8) : List UInt8 :=
  bytes ++ List.replicate (16 - bytes.length % 16) (UInt8.ofNat (16 - bytes.length % 16))

/-- Whole blocks without their padding. -/
def pkcs7Unpad (blocks : List UInt8) : List UInt8 :=
  blocks.take (blocks.length - (blocks.getLast?.getD 0).toNat)

/-- Each block, with the bits of the mask flipped. -/
def masked (mask bytes : List UInt8) : List UInt8 :=
  bytes.mapIdx fun i b ↦ b ^^^ mask.getD (i % 16) 0

/-- An encrypter that masks padded blocks. On texts of one block it does what the real one does,
given the mask of that block. -/
def maskEncrypter (mask : List UInt8) : Encrypter where
  encryptBytes bytes := some (masked mask (pkcs7Pad bytes))
  decryptBytes blocks := some (pkcs7Unpad (masked mask blocks))
  encrypt64 plainText := some (String.ofList
    (base64Encode (masked mask (pkcs7Pad (plainText.toList.flatMap String.utf8EncodeChar)))))
  decrypt64 base64Text := do
    let blocks ← base64Decode base64Text.toList
    let text ← decodeUtf8 (pkcs7Unpad (masked mask blocks))
    return withoutBom text

variable (mask bytes : List UInt8)

/-- Padding can be taken off again. -/
theorem pkcs7Unpad_pkcs7Pad : pkcs7Unpad (pkcs7Pad bytes) = bytes := by
  have hpos : 16 - bytes.length % 16 ≠ 0 := by omega
  have hlt : 16 - bytes.length % 16 < 256 := by omega
  have hlast : (pkcs7Pad bytes).getLast? = some (UInt8.ofNat (16 - bytes.length % 16)) := by
    rw [pkcs7Pad, List.getLast?_append, List.getLast?_replicate, if_neg hpos]
    rfl
  have htoNat : (UInt8.ofNat (16 - bytes.length % 16)).toNat = 16 - bytes.length % 16 := by
    rw [UInt8.toNat_ofNat']
    exact Nat.mod_eq_of_lt hlt
  rw [pkcs7Unpad, hlast, Option.getD_some, htoNat, pkcs7Pad, List.length_append,
    List.length_replicate, Nat.add_sub_cancel, List.take_left]

/-- Masking twice changes nothing. -/
theorem masked_masked : masked mask (masked mask bytes) = bytes := by
  apply List.ext_getElem?
  intro i
  unfold masked
  rw [List.getElem?_mapIdx, List.getElem?_mapIdx]
  cases bytes[i]? with
  | none => rfl
  | some b =>
    have hself (m : UInt8) : b ^^^ m ^^^ m = b := by
      rw [UInt8.xor_assoc, UInt8.xor_self, UInt8.xor_zero]
    simp only [Option.map_some, hself]

/-- Masked blocks can be encrypted and decrypted. -/
theorem sound_maskEncrypter : (maskEncrypter mask).Sound where
  encrypts bytes := by
    have hlen : (masked mask (pkcs7Pad bytes)).length =
        bytes.length + (16 - bytes.length % 16) := by
      rw [masked, List.length_mapIdx, pkcs7Pad, List.length_append, List.length_replicate]
    refine ⟨masked mask (pkcs7Pad bytes), rfl, List.length_pos_iff.mp (by omega), by omega, ?_⟩
    exact congrArg some ((congrArg pkcs7Unpad (masked_masked mask (pkcs7Pad bytes))).trans
      (pkcs7Unpad_pkcs7Pad bytes))
  encrypt64_eq _ := rfl
  decrypt64_eq base64Text blocks bytes text hblocks hbytes htext := by
    have hunpad : pkcs7Unpad (masked mask blocks) = bytes := Option.some.inj hbytes
    simp only [maskEncrypter, hblocks, hunpad, htext, Option.bind_eq_bind, Option.bind_some]
    rfl

end Masks

end PacketDial.Ui
