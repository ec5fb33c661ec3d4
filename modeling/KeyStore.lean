import KeyStore.Session
import KeyStore.Main
import KeyStore.Proofs.Base64.Codec
import KeyStore.Proofs.Base64.WebSafe
import KeyStore.Proofs.Cipher.ByteField
import KeyStore.Proofs.Cipher.AesInverse
import KeyStore.Proofs.Cipher.ChainingInverse
import KeyStore.Proofs.Cipher.ChainingParts
import KeyStore.Proofs.Digest.PasswordKey
import KeyStore.Proofs.Digest.Sha1Rules
import KeyStore.Proofs.Digest.KeyChain
import KeyStore.Proofs.Json.Grammar
import KeyStore.Proofs.Json.Strings
import KeyStore.Proofs.Json.Numbers
import KeyStore.Proofs.Json.Skipping
import KeyStore.Proofs.Json.RoundTrip
import KeyStore.Proofs.Json.WrittenForm
import KeyStore.Proofs.Json.Spans
import KeyStore.Proofs.Json.ValueReader
import KeyStore.Proofs.Json.Members
import KeyStore.Proofs.Json.Parts
import KeyStore.Proofs.Json.Objects
import KeyStore.Proofs.Json.Rows
import KeyStore.Proofs.Protection
import KeyStore.Proofs.Reader.Protected
import KeyStore.Proofs.Reader.Incomplete
import KeyStore.Proofs.BigEndian
import KeyStore.Proofs.Der.Element
import KeyStore.Proofs.Der.Primitive
import KeyStore.Proofs.Der.PublicKeyInfo
import KeyStore.Proofs.Pem
import KeyStore.Proofs.Rsa.Key
import KeyStore.Proofs.Rsa.Encoding
import KeyStore.Proofs.Import.Loading
import KeyStore.Proofs.Import.KeyRecords
import KeyStore.Proofs.Import.PrivateKey
import KeyStore.Proofs.Import.PublicKey
import KeyStore.Proofs.Der.Certificate
import KeyStore.Proofs.Import.Certificate
import KeyStore.Proofs.Base64.Canonical
import KeyStore.Proofs.Base64.PaddedText
import KeyStore.Proofs.Base64.Faults
import KeyStore.Proofs.Record.CanonicalText
import KeyStore.Proofs.Record.Layout
import KeyStore.Proofs.Record.EnvelopeText
import KeyStore.Proofs.Import.CanonicalPublicKey
import KeyStore.Proofs.Import.KeyPairs
import KeyStore.Proofs.Reader.Layers
import KeyStore.Proofs.Session.Snapshots
import KeyStore.Proofs.Record.Distinction
import KeyStore.Proofs.Files.Writing
import KeyStore.Proofs.Files.StoreEntries
import KeyStore.Proofs.Files.StorePaths
import KeyStore.Proofs.Files.EntryWrites
import KeyStore.Proofs.Import.AesKeys
import KeyStore.Proofs.Command.Reports
import KeyStore.Proofs.Command.CommandLines
import KeyStore.Proofs.Command.OptionRows
import KeyStore.Proofs.Command.OptionPlaces
import KeyStore.Proofs.Command.LineForms
import KeyStore.Proofs.Command.PasswordSources
import KeyStore.Proofs.Command.Dependence
import KeyStore.Proofs.Command.StoreOption
import KeyStore.Proofs.Command.PasswordOption
import KeyStore.Proofs.Command.VersionArguments
import KeyStore.Proofs.Command.LogLines
import KeyStore.Proofs.Command.Secrets
import KeyStore.Proofs.Command.LogSetting
import KeyStore.Proofs.Command.EnvironmentFile
import KeyStore.Proofs.Import.KeyTypes
import KeyStore.Proofs.Import.Armour
import KeyStore.Proofs.Rsa.Declaration
import KeyStore.Proofs.Import.CheckedSteps
import KeyStore.Proofs.Import.SafeImport
