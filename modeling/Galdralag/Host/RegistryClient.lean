import Galdralag.Foundation.Failover
import Galdralag.Host.GaldraFingerprint
import Galdralag.Host.Registry
import Mathlib.Data.List.Dedup
import Mathlib.Data.List.Sort
import Mathlib.Data.String.Basic

/-!
# Uploading and downloading keys

`runPush` sends one certificate to a registry and `runFetch` asks for one. Both go through the
endpoints that were resolved. They go on to the next endpoint when one cannot be reached or answers
that it is overloaded or has no upstream, as long as the configuration says so and an endpoint is
left; every other answer ends the command.

The network is arbitrary: what a registry answers may depend on everything that was sent before.
-/

set_option linter.all false

namespace Galdralag.Host

/-- What is sent to a registry: an upload has a body, a lookup has none. -/
structure RegistryRequest where
  url : String
  body : Option String
  deriving DecidableEq, Repr

/-- What comes back. A body that cannot be read is missing. -/
inductive RegistryReply where
  | unreachable
  | answered (status : ℕ) (body : Option String)
  deriving DecidableEq, Repr

/-- Everything that was sent and answered. -/
abbrev RegistryLog := List (RegistryRequest × RegistryReply)

/-- A network answers by everything that was exchanged before. -/
abbrev RegistryNet := RegistryLog → RegistryRequest → RegistryReply

def isSuccess (status : ℕ) : Bool := 200 ≤ status ∧ status < 300

def endpointLabel (region : Option String) (url : String) : String :=
  match region with
  | some r => r ++ " (" ++ url ++ ")"
  | none => url

def pushUrl (base : String) : Except GaldraError String :=
  (trimmedRegistryBase base).map (· ++ "/api/v1/keys")

def fingerprintLookupUrl (base fp : String) : Except GaldraError String :=
  (trimmedRegistryBase base).map (· ++ "/keys/" ++ fp)

/-- The request at an endpoint, at the address that `address` gives for its base. -/
def requestAt {α : Type} (address : String → Except GaldraError String) (body : Option String)
    (ep : RegistryEndpoint) : Except (Except GaldraError α) RegistryRequest :=
  match address ep.url with
  | .error e => .error (.error e)
  | .ok url => .ok ⟨url, body⟩

/-- The text about an endpoint that cannot be reached. -/
def couldNotReach (label : String) : String :=
  "could not reach " ++ label ++ " — check URL and network connectivity"

/-- The text about a status. -/
def returnedHttp (status : ℕ) (label : String) : String :=
  "registry returned HTTP " ++ toString status ++ " from " ++ label

/-! ## Upload -/

structure PushResponse where
  status : String
  fingerprint : Option String
  message : Option String
  reason : Option String
  deriving DecidableEq, Repr

structure PushArgs where
  keyserverUrl : Option String := none
  slot : ℕ := 1
  email : Option String := none
  firstName : Option String := none
  lastName : Option String := none
  callsign : Option String := none
  dmrId : Option ℕ := none
  radioAffiliation : Option String := none
  fluxerId : Option String := none
  discordId : Option String := none
  ircId : Option String := none
  phoneNumber : Option String := none
  street : Option String := none
  country : Option String := none
  postalCode : Option String := none
  region : Option String := none
  organisation : Option String := none
  role : Option String := none
  note : Option String := none
  badgeNumber : Option String := none
  dryRun : Bool := false
  fixtureArmoredKey : Option String := none

structure PushPayload where
  email : String
  armoredPublicKey : String
  firstName : Option String
  lastName : Option String
  callsign : Option String
  dmrId : Option ℕ
  radioAffiliation : Option String
  fluxerId : Option String
  discordId : Option String
  ircId : Option String
  phoneNumber : Option String
  street : Option String
  country : Option String
  postalCode : Option String
  region : Option String
  organisation : Option String
  role : Option String
  note : Option String
  badgeNumber : Option String

/-- A certificate, as the normalised addresses of its user identities. -/
abbrev Cert := List (Option String)

/-- What an upload uses besides the network: the token, the file system, the HTTP library and the
JSON library. -/
structure PushEnv where
  connect : Except GaldraError Unit
  keyExportPublic : ℕ → Except GaldraError (Cert × String)
  readFixture : String → Except GaldraError (Cert × String)
  registryHttpClient : ℕ → Except GaldraError Unit
  toStringPretty : PushPayload → Except String String
  fromStr : String → Option PushResponse

def optTrimNonempty (s : Option String) : Option String := (s.filter (Nonblank ·)).map trimmed

def certEmailsSorted (cert : Cert) : List String :=
  (cert.filterMap id).dedup.insertionSort (· ≤ ·)

def dmrIdMax : ℕ := 16777215

def validateDmrIdRange (id : Option ℕ) : Except GaldraError Unit :=
  match id with
  | none => .ok ()
  | some n => ensure (n ≠ 0 ∧ n ≤ dmrIdMax) (GaldraError.config
      ("DMR ID must be between 1 and 16777215 inclusive — got " ++ toString n))

def resolveEmailForPush (cert : Cert) (emailFlag : Option String) : Except GaldraError String :=
  let emails := certEmailsSorted cert
  let choose := GaldraError.config
    ("Certificate has multiple email User IDs — pass --email to choose one: " ++
      String.intercalate ", " emails)
  let present (g : String) : Bool := emails.any fun e ↦ eqIgnoreAsciiCase e.toList g.toList
  match emails with
  | [] => .error (.config "Certificate has no email User ID. Use --email.")
  | [only] =>
    match emailFlag with
    | none => .ok only
    | some given =>
      if ¬Nonblank given then .ok only
      else if present (trimmed given) then .ok only
      else .error (.config ("The given --email is not present on the certificate (certificate has "
        ++ only ++ ")"))
  | _ =>
    match emailFlag with
    | none => .error choose
    | some given =>
      if ¬Nonblank given then .error choose
      else if present (trimmed given) then .ok (trimmed given)
      else .error (.config ("--email " ++ trimmed given ++ " is not present on the certificate; " ++
        "options: " ++ String.intercalate ", " emails))

def loadCertAndArmor (env : PushEnv) (args : PushArgs) : Except GaldraError (Cert × String) :=
  let fromToken : Except GaldraError (Cert × String) :=
    match env.connect with
    | .ok _ => env.keyExportPublic args.slot
    | .error .deviceNotConnected =>
      if args.dryRun then .error (.config ("no token connected — for a dry-run without hardware, " ++
        "pass --fixture-armored-key pointing at an armoured public key file"))
      else .error .deviceNotConnected
    | .error e => .error e
  match args.fixtureArmoredKey with
  | some p =>
    if args.dryRun then env.readFixture p
    else .error (.config "--fixture-armored-key is only valid with --dry-run")
  | none => fromToken

def PushArgs.payload (args : PushArgs) (email armored : String) : PushPayload where
  email := email
  armoredPublicKey := trimmed armored
  firstName := args.firstName
  lastName := args.lastName
  callsign := args.callsign
  dmrId := args.dmrId
  radioAffiliation := args.radioAffiliation
  fluxerId := args.fluxerId
  discordId := args.discordId
  ircId := args.ircId
  phoneNumber := args.phoneNumber
  street := args.street
  country := args.country
  postalCode := args.postalCode
  region := args.region
  organisation := optTrimNonempty args.organisation
  role := optTrimNonempty args.role
  note := optTrimNonempty args.note
  badgeNumber := optTrimNonempty args.badgeNumber

/-- What a registry's response to an upload comes to: a line to print, or an error. -/
def PushResponse.result (pr : PushResponse) : Except GaldraError String :=
  if pr.status = "accepted" then .ok (pr.fingerprint.getD "accepted")
  else if pr.status = "pending_confirmation" then .ok (pr.message.getD "pending confirmation")
  else if pr.status = "error" then
    .error (.config ("registry rejected the key upload: " ++
      pr.reason.getD "registry rejected the request"))
  else .error (.config ("registry returned an unexpected status field: " ++ pr.status))

/-- What an upload makes of a reply. -/
def pushJudge (env : PushEnv) (failover : Bool) (ep : RegistryEndpoint) (more : Bool) :
    RegistryReply → Verdict String (Except GaldraError String)
  | .unreachable =>
    let lastTransportErr := couldNotReach (endpointLabel ep.region ep.url)
    if failover && more then .passOn lastTransportErr else .ends (.error (.config lastTransportErr))
  | .answered _ none =>
    .ends (.error (.config "registry returned a response that could not be read"))
  | .answered status (some body) =>
    let label := endpointLabel ep.region ep.url
    if isSuccess status then
      match env.fromStr body with
      | some pr => .ends pr.result
      | none => .ends (.error (.config
          "registry returned success but the response was not valid JSON"))
    else if status = 422 then
      let reason := ((env.fromStr body).filter (·.status = "error")).bind (·.reason)
      .ends (.error (.config ("registry rejected the key upload: " ++
        reason.getD "registry rejected the request (HTTP 422)")))
    else if isRegistryApplicationStatus status then
      .ends (.error (.config (returnedHttp status label)))
    else if failover && shouldFailoverAfterHttp status true && more then
      .passOn (returnedHttp status label)
    else
      .ends (.error (.config
        (returnedHttp status label ++ "; try again or contact the registry operator")))

/-- The endpoints as an upload asks them. -/
def pushLoop (env : PushEnv) (failover : Bool) (json : String) :
    Failover RegistryEndpoint RegistryRequest RegistryReply String (Except GaldraError String) where
  request := requestAt pushUrl (some json)
  judge := pushJudge env failover
  exhausted lastTransportErr := .error (.config lastTransportErr)

/-- What an upload has ready before it sends anything. -/
def preparePush (env : PushEnv) (args : PushArgs) (registryCfg : Option RegistryKeyserverConfig)
    (envValue : Option String) : Except GaldraError (RegistryResolution × String) := do
  let _ ← validateDmrIdRange args.dmrId
  let resolution ← resolveRegistry args.keyserverUrl registryCfg envValue
  let _ ← trimmedRegistryBase ((resolution.endpoints.head?.map (·.url)).getD "")
  let (cert, armored) ← loadCertAndArmor env args
  let email ← resolveEmailForPush cert args.email
  let json ← (env.toStringPretty (args.payload email armored)).mapError GaldraError.serialise
  pure (resolution, json)

/-- `galdra keyserver push`: what is exchanged, and the line that is printed or the error. -/
def runPush (env : PushEnv) (net : RegistryNet) (args : PushArgs)
    (registryCfg : Option RegistryKeyserverConfig) (envValue : Option String) :
    RegistryLog × Except GaldraError String :=
  match preparePush env args registryCfg envValue with
  | .error e => ([], .error e)
  | .ok (resolution, json) =>
    if args.dryRun then ([], .ok json)
    else
      match env.registryHttpClient resolution.timeoutSeconds with
      | .error e => ([], .error e)
      | .ok _ => (pushLoop env resolution.failover json).run net resolution.endpoints []
          "no registry endpoint responded"

/-! ## Download -/

structure KeyRecord where
  fingerprint : String
  armoredKey : String
  email : String
  firstName : Option String := none
  lastName : Option String := none
  callsign : Option String := none
  dmrId : Option ℕ := none
  radioAffiliation : Option String := none
  fluxerId : Option String := none
  discordId : Option String := none
  ircId : Option String := none
  phoneNumber : Option String := none
  street : Option String := none
  country : Option String := none
  postalCode : Option String := none
  region : Option String := none
  organisation : Option String := none
  role : Option String := none
  note : Option String := none
  badgeNumber : Option String := none
  submittedAt : String
  status : String
  revokedAt : Option String := none
  revocationReason : Option String := none

inductive FetchKeysBody where
  | one (k : KeyRecord)
  | many (list : List KeyRecord)

structure FetchArgs where
  keyserverUrl : Option String := none
  fingerprint : Option String := none
  email : Option String := none
  output : String := "armored"
  save : Option String := none

inductive FetchOutputFmt where
  | armored
  | json
  deriving DecidableEq, Repr

/-- What a download uses besides the network: the HTTP library, the URL library and the JSON
library. -/
structure FetchEnv where
  registryHttpClient : ℕ → Except GaldraError Unit
  /-- The address with a query for an e-mail address appended. -/
  appendEmail : String → String → Except String String
  fromStr : String → Option FetchKeysBody
  toStringPretty : List KeyRecord → Option String → Except String String

def emailLookupUrl (env : FetchEnv) (base email : String) : Except GaldraError String := do
  let b ← trimmedRegistryBase base
  (env.appendEmail (b ++ "/keys") email).mapError fun e ↦ GaldraError.config
    ("invalid registry URL: " ++ e ++
      "; set `--keyserver-url`, GALDRA_KEYSERVER_URL, or [keyserver] url")

def normalizeFingerprintHex (raw : String) : Except GaldraError String := do
  let compact := raw.toList.filter fun c ↦ c ∉ [' ', '\t', '\n', '\x0c', '\r']
  let _ ← ensure (byteLength compact = 40) (GaldraError.config
    ("Fingerprint must be exactly 40 hexadecimal characters — got " ++
      toString (byteLength compact)))
  let _ ← ensure (compact.all isAsciiHexdigit = true)
    (GaldraError.config "Fingerprint must contain only hexadecimal digits")
  pure (String.ofList (compact.map Char.toUpper))

def parseOutputMode (s : String) : Except GaldraError FetchOutputFmt :=
  let other := String.ofList ((trim s.toList).map Char.toLower)
  if other = "armored" then .ok .armored
  else if other = "json" then .ok .json
  else .error (.config ("unknown --output `" ++ other ++ "` (expected armored or json)"))

def flattenRecords : FetchKeysBody → List KeyRecord
  | .one k => [k]
  | .many list => list

/-- What a download makes of a reply. -/
def fetchJudge (env : FetchEnv) (failover : Bool) (ep : RegistryEndpoint) (more : Bool) :
    RegistryReply → Verdict String (Except GaldraError (List KeyRecord))
  | .unreachable =>
    let lastTransportErr := couldNotReach (endpointLabel ep.region ep.url)
    if failover && more then .passOn lastTransportErr else .ends (.error (.config lastTransportErr))
  | .answered _ none =>
    .ends (.error (.config "registry returned a response that could not be read"))
  | .answered status (some body) =>
    let label := endpointLabel ep.region ep.url
    if status = 404 then .ends (.error (.config "No key found for the given query"))
    else if isRegistryApplicationStatus status then
      .ends (.error (.config (returnedHttp status label)))
    else if !isSuccess status then
      if failover && shouldFailoverAfterHttp status true && more then
        .passOn (returnedHttp status label)
      else .ends (.error (.config (returnedHttp status label)))
    else
      match env.fromStr body with
      | none => .ends (.error (.config
          "registry returned success but the body was not valid JSON"))
      | some parsed =>
        let batch := flattenRecords parsed
        if batch = [] then .ends (.error (.config "No key found for the given query"))
        else .ends (.ok batch)

/-- A lookup by fingerprint or by e-mail address. -/
def lookupUrl (env : FetchEnv) (query : String ⊕ String) (base : String) :
    Except GaldraError String :=
  match query with
  | .inl fp => fingerprintLookupUrl base fp
  | .inr email => emailLookupUrl env base email

/-- The endpoints as a download asks them. -/
def fetchLoop (env : FetchEnv) (failover : Bool) (query : String ⊕ String) :
    Failover RegistryEndpoint RegistryRequest RegistryReply String
      (Except GaldraError (List KeyRecord)) where
  request := requestAt (lookupUrl env query) none
  judge := fetchJudge env failover
  exhausted lastTransportErr := .error (.config lastTransportErr)

/-- What is written of the records that were found. -/
def renderRecords (env : FetchEnv) (fmt : FetchOutputFmt) (records : List KeyRecord) :
    Except GaldraError String :=
  match fmt with
  | .armored =>
    match records with
    | [row] => .ok (trimmed row.armoredKey)
    | rows => .ok (rows.zipIdx.foldl (fun accum p ↦
        accum ++ ("----- record " ++ toString (p.2 + 1) ++ " -----") ++ "\n" ++
          trimmed p.1.armoredKey ++ "\n") "")
  | .json =>
    let ambiguityNote := if 1 < records.length then
      some "Multiple registry records matched; output includes all matching rows." else none
    (env.toStringPretty records ambiguityNote).mapError GaldraError.serialise

/-- What a download asks for. -/
def fetchQuery (args : FetchArgs) : Except GaldraError (String ⊕ String) :=
  match optTrimNonempty args.fingerprint with
  | some fp => (normalizeFingerprintHex fp).map .inl
  | none =>
    match optTrimNonempty args.email with
    | some email => .ok (.inr email)
    | none => .error (.config "Nothing to look up — pass --fingerprint or --email.")

/-- What a download has ready before it sends anything. -/
def prepareFetch (env : FetchEnv) (args : FetchArgs) (registryCfg : Option RegistryKeyserverConfig)
    (envValue : Option String) :
    Except GaldraError ((String ⊕ String) × RegistryResolution × FetchOutputFmt) := do
  let query ← fetchQuery args
  let resolution ← resolveRegistry args.keyserverUrl registryCfg envValue
  let fmt ← parseOutputMode args.output
  let _ ← env.registryHttpClient resolution.timeoutSeconds
  pure (query, resolution, fmt)

/-- `galdra keyserver fetch`: what is exchanged, and the text that is written or the error. -/
def runFetch (env : FetchEnv) (net : RegistryNet) (args : FetchArgs)
    (registryCfg : Option RegistryKeyserverConfig) (envValue : Option String) :
    RegistryLog × Except GaldraError String :=
  match prepareFetch env args registryCfg envValue with
  | .error e => ([], .error e)
  | .ok (query, resolution, fmt) =>
    let run := (fetchLoop env resolution.failover query).run net resolution.endpoints []
      "no registry endpoint responded"
    (run.1, run.2 >>= renderRecords env fmt)

end Galdralag.Host
