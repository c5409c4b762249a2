import GrpcBench.Library.Text
import GrpcBench.Programs
import Mathlib.Data.Nat.Notation

/-!
# Version negotiation

`proto.rs`: the version an endpoint reports against the one this build was compiled with.  Reading
JSON is a library's: here it is what deserializing a text as each of the two shapes yields.  So is
`{:?}`, the quoted form of a string.

* `parseSemver`: the version triples.
* `classify`: the outcome of the comparison.
* `evaluate`: the record of one endpoint, from the text its `GetVersion` returned.
* `fetchAndEvaluateVersion`: the call at startup, which refuses the outcomes that are refusals.
-/

namespace GrpcBench

/-- `HARNESS_PROTO_CRATE_VERSION`, from `Cargo.lock`. -/
def harnessProtoCrateVersion : String := "12.3.0"

/-- `HARNESS_CLIENT_CRATE_VERSION`, from `Cargo.lock`. -/
def harnessClientCrateVersion : String := "13.1.0"

/-- A version triple. -/
structure SemVer where
  major : UInt32
  minor : UInt32
  patch : UInt32
  deriving DecidableEq

namespace SemVer

/-- Lexicographic comparison. -/
def ord (v other : SemVer) : Ordering :=
  (compare v.major other.major).then
    ((compare v.minor other.minor).then (compare v.patch other.patch))

/-- `Display`. -/
instance : ToString SemVer where
  toString v := toString v.major ++ "." ++ toString v.minor ++ "." ++ toString v.patch

end SemVer

/-- `MIN_YELLOWSTONE_GEYSER`. -/
def minYellowstoneGeyser : SemVer := ⟨12, 2, 0⟩

/-- `MIN_RICHAT`. -/
def minRichat : SemVer := ⟨2, 1, 0⟩

/-- `SemVerParseError`. -/
inductive SemVerParseError where
  | shape (input : String)
  | component (input component : String)
  deriving DecidableEq

/-- The `#[error]` text. -/
def SemVerParseError.message (quoted : String → String) : SemVerParseError → String
  | .shape input => "expected MAJOR.MINOR.PATCH triple, got " ++ quoted input
  | .component input part =>
    "non-numeric semver component in " ++ quoted input ++ ": " ++ quoted part

/-- One component, as a number. -/
def parseComponent (raw : String) (component : List Char) : Except SemVerParseError UInt32 :=
  match Text.parseU32 component with
  | none => .error (.component raw (String.ofList component))
  | some n => .ok n

/-- `parse_semver`. -/
def parseSemver (raw : String) : Except SemVerParseError SemVer :=
  let trimmed := (trim raw.toList).toList
  let stripped := (trimmed.dropPrefix? ['v']).getD trimmed
  match Text.splitn '.' 3 stripped with
  | major :: minor :: patchRest :: _ =>
    -- build metadata goes first, then a pre-release tag in front of it
    let patchStr := Text.before '-' (Text.before '+' patchRest)
    match parseComponent raw major with
    | .error e => .error e
    | .ok major =>
      match parseComponent raw minor with
      | .error e => .error e
      | .ok minor =>
        match parseComponent raw patchStr with
        | .error e => .error e
        | .ok patch => .ok ⟨major, minor, patch⟩
  | _ => .error (.shape raw)

/-! ## The reported blob -/

/-- The fields read from a version blob. -/
structure VersionBlob where
  package : Option String
  version : Option String
  proto : Option String
  solana : Option String
  deriving DecidableEq

/-- What deserializing a text as the nested and as the flat shape yields. -/
structure BlobReader where
  nested : String → Option VersionBlob
  flat : String → Option VersionBlob

/-- `parse_version_blob`.  A nested blob without any field is no hit. -/
def parseVersionBlob (reader : BlobReader) (raw : String) : Option VersionBlob :=
  match reader.nested raw with
  | some inner =>
    if inner.package.isSome ∨ inner.version.isSome ∨ inner.proto.isSome ∨ inner.solana.isSome then
      some inner
    else reader.flat raw
  | none => reader.flat raw

/-! ## Compatibility -/

/-- `Compatibility`. -/
inductive Compatibility where
  | accept
  | warn (reason : String)
  | refuseOlderMajor (harness server : UInt32)
  | refuseBaseline (package : String) (minimum reported : SemVer)
  | unknown (reason : String)
  deriving DecidableEq

/-- `Compatibility::is_refusal`. -/
def Compatibility.isRefusal : Compatibility → Bool
  | .refuseOlderMajor .. | .refuseBaseline .. => true
  | _ => false

/-- The minimum version of a package. -/
def baseline (package : String) : Option SemVer :=
  if package = "yellowstone-grpc-geyser" then some minYellowstoneGeyser
  else if package = "richat" then some minRichat
  else none

/-- The plugin-baseline check: the refusal, if there is one. -/
def refuseBelowBaseline (serverProto : SemVer) (serverPlugin : Option SemVer)
    (package : Option String) : Option Compatibility :=
  package.bind fun package => (baseline package).bind fun minimum =>
    let target := serverPlugin.getD serverProto
    -- another plugin major is another plugin family
    if target.major = minimum.major ∧ target.ord minimum = .lt then
      some (.refuseBaseline package minimum target)
    else none

/-- The drift of the server's version from the build's. -/
def drift (harness serverProto : SemVer) : Compatibility :=
  match serverProto.ord harness with
  | .eq => .accept
  | .lt => .warn ("server proto " ++ toString serverProto ++ " is older than harness build " ++
      toString harness ++ " within the same major; continuing because protobuf is " ++
      "forward-compatible for added fields, but flag the version drift")
  | .gt => .warn ("server proto " ++ toString serverProto ++ " is newer than harness build " ++
      toString harness ++
      "; continuing because protobuf is backward-compatible for known fields")

/-- `classify`. -/
def classify (harness : SemVer) (serverProto serverPlugin : Option SemVer)
    (package : Option String) : Compatibility :=
  match serverProto with
  | none => .unknown "server did not report a parseable proto version"
  | some serverProto =>
    if serverProto.major < harness.major then .refuseOlderMajor harness.major serverProto.major
    else (refuseBelowBaseline serverProto serverPlugin package).getD (drift harness serverProto)

/-! ## Evaluation -/

/-- `EndpointVersion`. -/
structure EndpointVersion where
  package : Option String
  pluginVersion : Option String
  protoVersion : Option String
  solanaVersion : Option String
  compatibility : Compatibility
  raw : String
  warnings : List String
  deriving DecidableEq

/-- `Vec::dedup`: one of each run of equal elements. -/
def dedup {α : Type} [DecidableEq α] : List α → List α
  | [] => []
  | [a] => [a]
  | a :: b :: l => if a = b then dedup (b :: l) else a :: dedup (b :: l)

/-- `assemble`. -/
def assemble (v : EndpointVersion) : EndpointVersion :=
  { v with warnings := dedup (v.warnings.mergeSort fun a b => decide (a ≤ b)) }

/-- `short_preview`; `none` where slicing panics. -/
def shortPreview (quoted : String → String) (s : String) : Option String :=
  let trimmed := (trim s.toList).toList
  if Text.utf8Len trimmed ≤ 80 then some (quoted (String.ofList trimmed))
  else (Text.sliceTo 77 trimmed).map fun slice => quoted (String.ofList slice) ++ "..."

/-- The label that a text which is not JSON stands for. -/
def plainLabel (raw : String) : String :=
  String.ofList (Text.trimMatches (fun c => c == '"') (trim raw.toList).toList)

/-- The record of a text that is not JSON, which is a plain version label. -/
def evaluatePlain (harness : SemVer) (raw preview : String) : EndpointVersion :=
  let plain := plainLabel raw
  assemble
    { package := none
      pluginVersion := some plain
      protoVersion := some plain
      solanaVersion := none
      compatibility := classify harness (parseSemver plain).toOption none none
      raw
      warnings := ["server version string is not JSON (" ++ preview ++
        "); treating as plain version label"] }

/-- A reported version as a triple, if it is one, and the warning if it is not. -/
def parseReported (quoted : String → String) (axis : String) (reported : Option String) :
    Option SemVer × List String :=
  match reported with
  | none => (none, [])
  | some s =>
    match parseSemver s with
    | .ok v => (some v, [])
    | .error e =>
      (none, ["could not parse server " ++ axis ++ " version: " ++ e.message quoted])

/-- The warning of an outcome. -/
def Compatibility.warnings : Compatibility → List String
  | .warn reason => [reason]
  | _ => []

/-- The record of a version blob. -/
def evaluateBlob (quoted : String → String) (harness : SemVer) (raw : String)
    (blob : VersionBlob) : EndpointVersion :=
  let packageWarnings :=
    if blob.package.isNone then
      ["server GetVersion did not include `package`; baseline check skipped"]
    else []
  let serverSemverStr := blob.proto.or blob.version
  let (serverSemver, serverWarnings) := parseReported quoted "proto" serverSemverStr
  let (pluginSemver, pluginWarnings) := parseReported quoted "plugin" blob.version
  let compatibility := classify harness serverSemver pluginSemver blob.package
  assemble
    { package := blob.package
      pluginVersion := blob.version
      protoVersion := blob.proto.or serverSemverStr
      solanaVersion := blob.solana
      compatibility
      raw
      warnings := packageWarnings ++ serverWarnings ++ pluginWarnings ++ compatibility.warnings }

/-- `evaluate`; `none` where it panics. -/
def evaluate (reader : BlobReader) (quoted : String → String) (raw : String) :
    Option EndpointVersion :=
  match parseSemver harnessProtoCrateVersion with
  | .error e =>
    some
      { package := none
        pluginVersion := none
        protoVersion := none
        solanaVersion := none
        compatibility := .unknown "failed to parse harness's own proto crate version"
        raw
        warnings := ["internal: failed to parse harness proto version " ++
          quoted harnessProtoCrateVersion ++ ": " ++ e.message quoted] }
  | .ok harness =>
    match parseVersionBlob reader raw with
    | none => (shortPreview quoted raw).map (evaluatePlain harness raw)
    | some blob => some (evaluateBlob quoted harness raw blob)

/-! ## The output -/

/-- `ProtoMetadata`. -/
structure ProtoMetadata where
  yellowstoneProtoCrateVersion : String
  yellowstoneGrpcClientCrateVersion : String
  endpoint1ServerPluginVersion : String
  endpoint2ServerPluginVersion : String
  compatibilityWarnings : List String
  deriving DecidableEq

/-- The warnings of an endpoint, with its label. -/
def EndpointVersion.labelled (label : String) (v : EndpointVersion) : List String :=
  v.warnings.map fun w => label ++ ": " ++ w

namespace ProtoMetadata

/-- `ProtoMetadata::from_endpoints`. -/
def fromEndpoints (endpoint1 endpoint2 : EndpointVersion) : ProtoMetadata where
  yellowstoneProtoCrateVersion := harnessProtoCrateVersion
  yellowstoneGrpcClientCrateVersion := harnessClientCrateVersion
  endpoint1ServerPluginVersion := endpoint1.pluginVersion.getD "unknown"
  endpoint2ServerPluginVersion := endpoint2.pluginVersion.getD "unknown"
  compatibilityWarnings := endpoint1.labelled "endpoint1" ++ endpoint2.labelled "endpoint2"

/-- `ProtoMetadata::from_single_endpoint`. -/
def fromSingleEndpoint (endpoint1 : EndpointVersion) : ProtoMetadata where
  yellowstoneProtoCrateVersion := harnessProtoCrateVersion
  yellowstoneGrpcClientCrateVersion := harnessClientCrateVersion
  endpoint1ServerPluginVersion := endpoint1.pluginVersion.getD "unknown"
  endpoint2ServerPluginVersion := "n/a (--solo)"
  compatibilityWarnings := endpoint1.labelled "endpoint1"

end ProtoMetadata

/-- The errors of `fetch_and_evaluate_version`. -/
inductive YellowstoneError where
  | getVersion (url source : String)
  | versionRefused (url reason : String)
  deriving DecidableEq

/-- `fetch_and_evaluate_version`, given the response or the status of the call; `none` where it
panics. -/
def fetchAndEvaluateVersion (reader : BlobReader) (quoted : String → String) (url : String)
    (response : Except String String) : Option (Except YellowstoneError EndpointVersion) :=
  match response with
  | .error source => some (.error (.getVersion url source))
  | .ok version => (evaluate reader quoted version).map fun evaluation =>
    match evaluation.compatibility with
    | .refuseOlderMajor harness server => .error (.versionRefused url
        ("server proto major " ++ toString server ++ " is older than harness major " ++
          toString harness))
    | .refuseBaseline package minimum reported => .error (.versionRefused url
        ("server plugin " ++ package ++ " reports " ++ toString reported ++
          " which is below the supported minimum " ++ toString minimum))
    | _ => .ok evaluation

end GrpcBench
