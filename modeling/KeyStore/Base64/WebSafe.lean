import KeyStore.Base64.Basic
import KeyStore.Text.Utf8

/-!
# Web-safe base64 text

Every binary field of a key store is written in the web-safe alphabet without padding. Reading
also takes texts that somebody has padded: any run of `=` at the end is dropped first.
-/

namespace KeyStore.WebSafe

def encode (bytes : Bytes) : String :=
  String.ofList ((Base64.encode .webSafe .absent bytes).map Char.ofUInt8)

def stripPadding (text : String) : String :=
  String.ofList ((text.toList.reverse.dropWhile (· = '=')).reverse)

def decode (text : String) : Except Base64.Fault Bytes :=
  Base64.decode .webSafe .absent (Utf8.encode (stripPadding text))

end KeyStore.WebSafe
