/-
Encryption of webhook secrets.

A secret is encrypted with AES-GCM under a nonce drawn for it.  What is stored is the
hexadecimal text of the nonce, the ciphertext and the tag, so `decrypt_secret` has to cut
the text where `encrypt_secret` has joined it.
-/
import Sutram.Library.Hex
import Sutram.Workflow.Routes

namespace Sutram.Workflow

/-- `cryptography`'s `AESGCM` with no associated data.  Both raise for a key of a wrong
size, `encrypt` for a text that is too long and `decrypt` for a tag that does not fit. -/
structure Aesgcm where
  encrypt : List UInt8 → List UInt8 → List UInt8 → Option (List UInt8)
  decrypt : List UInt8 → List UInt8 → List UInt8 → Option (List UInt8)
  decrypt_encrypt : ∀ {key nonce plaintext ciphertext},
    encrypt key nonce plaintext = some ciphertext → decrypt key nonce ciphertext = some plaintext

/-- What `os.urandom(12)` draws. -/
def Nonce := { bytes : List UInt8 // bytes.length = 12 }

/-- `str.encode` -/
def encodeText (text : String) : List UInt8 := text.toByteArray.data.toList

/-- `bytes.decode` -/
def decodeText (bytes : List UInt8) : Option String := String.fromUTF8? ⟨bytes.toArray⟩

def encryptSecret (aes : Aesgcm) (nonce : Nonce) (plaintext hexKey : String) : Option String :=
  (Hex.toBytes hexKey.toList).bind fun key =>
    (aes.encrypt key nonce.val (encodeText plaintext)).map fun ciphertext =>
      String.ofList (Hex.ofBytes (nonce.val ++ ciphertext))

def decryptSecret (aes : Aesgcm) (hexCiphertext hexKey : String) : Option String :=
  (Hex.toBytes hexKey.toList).bind fun key => (Hex.toBytes hexCiphertext.toList).bind fun raw =>
    (aes.decrypt key (raw.take 12) (raw.drop 12)).bind decodeText

theorem decodeText_encodeText (text : String) : decodeText (encodeText text) = some text := by
  have hbytes : (⟨(encodeText text).toArray⟩ : ByteArray) = text.toByteArray := by
    simp [encodeText]
  rw [decodeText, hbytes, String.fromUTF8?, dif_pos text.isValidUTF8]
  rfl

theorem decryptSecret_encryptSecret {aes : Aesgcm} {nonce : Nonce}
    {plaintext hexKey encrypted : String}
    (h : encryptSecret aes nonce plaintext hexKey = some encrypted) :
    decryptSecret aes encrypted hexKey = some plaintext := by
  obtain ⟨key, hkey, h⟩ := Option.bind_eq_some_iff.mp h
  obtain ⟨ciphertext, hciphertext, rfl⟩ := Option.map_eq_some_iff.mp h
  have htake : (nonce.val ++ ciphertext).take 12 = nonce.val := List.take_left' nonce.property
  have hdrop : (nonce.val ++ ciphertext).drop 12 = ciphertext := List.drop_left' nonce.property
  rw [decryptSecret, hkey, String.toList_ofList, Hex.toBytes_ofBytes]
  simp only [Option.bind_some, htake, hdrop, aes.decrypt_encrypt hciphertext]
  exact decodeText_encodeText plaintext

/-- The service with the key of its settings.  A draw of the nonce goes by its name. -/
def cryptoService (lib : UrlLibrary) (aes : Aesgcm) (urandom : String → Nonce) (hexKey : String) :
    Service where
  toUrlLibrary := lib
  encryptSecret nonce secret := encryptSecret aes (urandom nonce) secret hexKey
  decryptSecret encrypted := decryptSecret aes encrypted hexKey

end Sutram.Workflow
