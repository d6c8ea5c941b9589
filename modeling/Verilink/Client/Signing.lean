import Verilink.Edge.Proxy

/-!
# The signing clients

`SignRequest` and `SignRequestWithIdempotencyKey` of the Go client and their counterparts of the
Node client.
-/

namespace Verilink.Client

open Verilink.Framework Verilink.Edge

def keyID (issuerDID keyLabel : String) : String := "vrl:agent:" ++ issuerDID ++ "|" ++ keyLabel

def idempotency (key : String) : ExtraComponent := ⟨"idempotency-key", key⟩

/-! ## Go -/

/-- The parts of an `http.Request` that are signed. `url` is the text of the URL. -/
structure GoRequest where
  method : String
  scheme : String
  url : String
  host : String
  requestURI : String
  body : Bytes

namespace GoRequest

def targetURI (req : GoRequest) : String :=
  if req.scheme ≠ "" then req.url
  else
    let scheme := if req.scheme ≠ "" then req.scheme else "https"
    scheme ++ "://" ++ req.host ++ req.requestURI

variable (p : Chars.Printable) (sha : Sha256) (scheme : SignatureScheme)

def signRequest (req : GoRequest) (issuerDID keyLabel : String) (privateKey : Bytes) (now : Int)
    (random : Bytes) : SignatureHeaders :=
  sign p sha scheme req.method req.targetURI now (now + 300) req.body (keyID issuerDID keyLabel)
    privateKey random

def signRequestWithIdempotencyKey (req : GoRequest) (issuerDID keyLabel : String) (privateKey : Bytes)
    (now : Int) (random : Bytes) (idempotencyKey : String) : SignatureHeaders :=
  signWithExtra p sha scheme req.method req.targetURI now (now + 300) req.body
    (keyID issuerDID keyLabel) privateKey random [idempotency idempotencyKey]

end GoRequest

/-! ## Node -/

/-- `RequestLike`. A time that is missing is zero, as is a missing body or method empty. -/
structure NodeRequest where
  url : String
  method : String := ""
  body : Bytes := []
  created : Int := 0
  expires : Int := 0

namespace NodeRequest

variable (sha : Sha256) (scheme : SignatureScheme)

def buildSignatureBase (method targetURI : String) (created expires : Int) (body : Bytes)
    (extra : List ExtraComponent) : String :=
  "\n".intercalate
    (["\"@method\": " ++ method.toUpper, "\"@target-uri\": " ++ targetURI,
      "\"@created\": " ++ String.ofList (Chars.decimal created),
      "\"@expires\": " ++ String.ofList (Chars.decimal expires)] ++
      (if 0 < body.length then ["\"content-digest\": " ++ computeContentDigest sha body] else []) ++
      extra.map fun c => "\"" ++ c.name ++ "\": " ++ c.value) ++ "\n"

def signedMethod (req : NodeRequest) : String :=
  (if req.method = "" then "GET" else req.method).toUpper

def signedCreated (req : NodeRequest) (now : Int) : Int := if req.created = 0 then now else req.created

def signedExpires (req : NodeRequest) (now : Int) : Int :=
  if req.expires = 0 then now + 300 else req.expires

/-- `signRequest`. The nonce is a UUID without its dashes. -/
def signRequest (req : NodeRequest) (issuerDID keyLabel : String) (privateKey : Bytes) (now : Int)
    (uuid : Bytes) (extra : List ExtraComponent) : SignatureHeaders :=
  let created := req.signedCreated now
  let expires := req.signedExpires now
  let sigBase := buildSignatureBase sha req.signedMethod req.url created expires req.body extra
  let components := " ".intercalate
    (["\"@method\"", "\"@target-uri\"", "\"@created\"", "\"@expires\""] ++
      (if 0 < req.body.length then ["\"content-digest\""] else []) ++
      extra.map fun c => "\"" ++ c.name ++ "\"")
  { sigInput := signatureInputText components ("\"" ++ keyID issuerDID keyLabel ++ "\"") created expires
      (String.ofList (hexText uuid))
    signature := String.ofList (Base64.encodeRawURL (scheme.sign privateKey sigBase)) }

def signRequestWithIdempotencyKey (req : NodeRequest) (issuerDID keyLabel : String) (privateKey : Bytes)
    (now : Int) (uuid : Bytes) (idempotencyKey : String) : SignatureHeaders :=
  req.signRequest sha scheme issuerDID keyLabel privateKey now uuid [idempotency idempotencyKey]

end NodeRequest

end Verilink.Client
