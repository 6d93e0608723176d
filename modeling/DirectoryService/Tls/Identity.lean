import DirectoryService.Files
import DirectoryService.Tls.Pem
import DirectoryService.Tls.PrivateKey

/-!
# The identity of a server

For secured connections a server needs certificates and a private key. Nothing is asked of the
certificates but to be there; the key is the first one in its envelope, or else the first record of
a key of factors.
-/

namespace DirectoryService

/-- Certificates and the private key that a server shows with them. -/
structure Identity where
  /-- The certificates, the server's own one first. -/
  certificates : List (List UInt8)
  /-- The private key. -/
  key : List UInt8

/-- Why a server has no identity. -/
inductive IdentityFault where
  /-- The certificate file cannot be read. -/
  | certificateFile (cause : FileFault)
  /-- The key file cannot be read. -/
  | keyFile (cause : FileFault)
  /-- The certificates are not written in blocks. -/
  | certificates (cause : Pem.Fault)
  /-- No block holds a certificate. -/
  | noCertificates
  /-- The keys are not written in blocks. -/
  | keys (cause : Pem.Fault)
  /-- No block holds a key. -/
  | noKey
  /-- The key is of no use. -/
  | unusableKey
deriving DecidableEq

/-- The wording of a fault. -/
def IdentityFault.message : IdentityFault → String
  | .certificateFile cause => "Failed to open certificate file: " ++ cause.message
  | .keyFile cause => "Failed to open key file: " ++ cause.message
  | .certificates cause => "Failed to parse certificates: " ++ cause.message
  | .noCertificates => "No certificates found in PEM data"
  | .keys cause => "Failed to parse PKCS#8 keys: " ++ cause.message
  | .noKey => "No private keys found in PEM data"
  | .unusableKey => "Failed to build TLS config: unexpected error: invalid private key"

namespace Identity

/-- The first private key among blocks. -/
def key? (blocks : List Pem.Block) : Option (List UInt8) :=
  (Pem.labelled "PRIVATE KEY" blocks ++ Pem.labelled "RSA PRIVATE KEY" blocks).head?

/-- The identity that two texts hold. -/
def ofTexts (certificateText keyText : List UInt8) : Except IdentityFault Identity := do
  let certificates ← (Pem.labelled "CERTIFICATE" <$> Pem.blocks certificateText).mapError
    .certificates
  if certificates.isEmpty then throw .noCertificates
  let some key ← (key? <$> Pem.blocks keyText).mapError .keys | throw .noKey
  if PrivateKey.isUsable key then return ⟨certificates, key⟩
  throw .unusableKey

/-- The identity that two files hold, both of which are read before anything else is looked at. -/
def ofFiles (read : String → Except FileFault (List UInt8)) (certificatePath keyPath : String) :
    Except IdentityFault Identity := do
  let certificateText ← (read certificatePath).mapError .certificateFile
  let keyText ← (read keyPath).mapError .keyFile
  ofTexts certificateText keyText

end Identity

end DirectoryService
