import Layr.Core.Session
import Layr.Go.Io

/-!
# Image paths and their signatures

A request for an image names a signature and a path, which holds the processing options, the
source and an extension. The source stands plain behind `plain/`, or encoded in the last segment.
-/

namespace Layr.Image

open Go Go.Io

/-- What the standard library computes: three base64 alphabets and hexadecimal digits, bytes as
text, the unescaping of paths, and HMAC-SHA256. -/
structure Codecs where
  rawURLEncoding : String → Option (List Byte)
  urlEncoding : String → Option (List Byte)
  stdEncoding : String → Option (List Byte)
  hex : String → Option (List Byte)
  text : List Byte → String
  pathUnescape : String → Option String
  hmac : List Byte → List Byte → List Byte

namespace Codecs

variable (codecs : Codecs)

/-! ## Signatures -/

/-- The bytes of a signature, in hexadecimal digits or base64. -/
def decodeSignature (signature : String) : Option (List Byte) :=
  let hexBytes := if (Core.bytesOf signature).length = 64
    then (codecs.hex signature).getD [] else []
  if hexBytes ≠ [] then some hexBytes
  else (codecs.rawURLEncoding signature).or (codecs.urlEncoding signature)

/-- `VerifySignature`. A signature may be cut off. -/
def verifySignature (signingKey signingSalt : List Byte) (providedSignature path : String)
    (allowInsecure : Bool) : Bool :=
  let signature := Strings.trimSpace providedSignature
  if signature = "" then false
  else if allowInsecure && (signature = "_" || signature = "unsafe") then true
  else if signingKey = [] then false
  else
    let expected := codecs.hmac signingKey (signingSalt ++ Core.bytesOf path)
    match codecs.decodeSignature signature with
    | none => false
    | some provided =>
      if provided = [] ∨ expected.length < provided.length then false
      else provided = expected.take provided.length

/-! ## Paths -/

/-- The parts of a path. -/
structure ParsedPath where
  optionsString : String
  sourceURL : String
  extensionOverride : String
  deriving DecidableEq, Repr

/-- A plain source, with its extension behind the last `@`. -/
def parsePlain (optionsString raw : String) : Option ParsedPath :=
  let rawSource := Strings.trimSpace raw
  if rawSource = "" then none
  else
    let parts := match Strings.cutLast '@' rawSource with
      | some (source, extension) => (source, Strings.trimPrefix extension ".")
      | none => (rawSource, "")
    let sourceURL := match codecs.pathUnescape parts.1 with
      | some decoded => if Strings.hasPrefix decoded "http" then decoded else parts.1
      | none => parts.1
    some ⟨optionsString, sourceURL, parts.2⟩

/-- An encoded source, in the first of three encodings that it has. -/
def decodeSource (encodedSource : String) : Option String :=
  (((codecs.rawURLEncoding encodedSource).or (codecs.urlEncoding encodedSource)).or
    (codecs.stdEncoding encodedSource)).map codecs.text

/-- A source in the last segment, with its extension behind an `@` or a dot, or behind an `@`
inside the encoding. -/
def parseEncoded (path : String) : Option ParsedPath :=
  let segments := Strings.split '/' path
  let last := segments.getLastD ""
  let optionsString := Strings.join "/" segments.dropLast
  let parts := match Strings.cutLast '@' last with
    | some (source, extension) => (source, Strings.trimPrefix extension ".")
    | none => (Strings.cutLast '.' last).getD (last, "")
  if parts.1 = "" then none
  else
    (codecs.decodeSource parts.1).map fun sourceURL =>
      match Strings.cutLast '@' sourceURL with
      | some (source, extension) => ⟨optionsString, source, Strings.trimPrefix extension "."⟩
      | none => ⟨optionsString, sourceURL, parts.2⟩

/-- `ParseURLPath`. -/
def parseURLPath (pathAfterSignature : String) : Option ParsedPath :=
  let path := Strings.trimPrefix pathAfterSignature "/"
  if path = "" then none
  else
    match Strings.cutText "/plain/" path with
    | some (optionsString, raw) => codecs.parsePlain optionsString raw
    | none =>
      if Strings.hasPrefix path "plain/" then
        codecs.parsePlain "" (Strings.trimPrefix path "plain/")
      else codecs.parseEncoded path

end Codecs

end Layr.Image
