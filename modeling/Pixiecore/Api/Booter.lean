import Pixiecore.Api.World
import Pixiecore.Misc.NetAddr

/-!
# Booters

The `Booter` interface and `remoteBooter` of `api/api.go`. Of the libraries that
`remoteBooter` calls, `net/url` is modelled as far as the scheme goes, which is what decides
whether a URL is absolute; what the JSON decoder and the rest of the URL parser accept is
left open (`Libs`), and so is what `fmt` makes of the `%q` verb.
-/

namespace Pixiecore.Api

/-- `BootSpec`. -/
structure BootSpec where
  kernel : Bytes
  initrd : Slice
  cmdline : Bytes
  deriving DecidableEq, Repr

/-- `Booter`. A file comes with a pretty name for logging. -/
structure Booter where
  shouldBoot : Bytes → Program (Except Bytes Unit)
  bootSpec : Bytes → Program (Except Bytes BootSpec)
  file : Bytes → Program (Except Bytes (Reader × Bytes))

/-! ## Absolute URLs -/

def isLetter (c : UInt8) : Bool := (97 ≤ c && c ≤ 122) || (65 ≤ c && c ≤ 90)

/-- `0`-`9`, `+`, `-` and `.`, which a scheme may not start with. -/
def isSchemeChar (c : UInt8) : Bool := (48 ≤ c && c ≤ 57) || c == 43 || c == 45 || c == 46

/-- `getscheme` of `net/url`, after the characters in `seen`: no scheme is an empty one, and a
URL that starts with a colon is an error. -/
def getScheme (seen : Bytes) : Bytes → Option Bytes
  | [] => some []
  | c :: rest =>
    if isLetter c then getScheme (seen ++ [c]) rest
    else if isSchemeChar c then
      if seen = [] then some [] else getScheme (seen ++ [c]) rest
    else if c = 58 then
      if seen = [] then none else some seen
    else some []

/-- The URL has a scheme, which is what `IsAbs` says of it once it is parsed. -/
def HasScheme (url : Bytes) : Prop := ∃ scheme, getScheme [] url = some scheme ∧ scheme ≠ []

/-! ## `remoteBooter` -/

/-- What the API server's JSON is decoded into. -/
structure SpecJSON where
  kernel : Bytes
  initrd : List Bytes
  cmdline : Bytes
  deriving DecidableEq, Repr

/-- All the URLs. -/
def SpecJSON.urls (r : SpecJSON) : List Bytes := r.kernel :: r.initrd

/-- The library functions whose results are left open. -/
structure Libs where
  /-- `json.NewDecoder(body).Decode(&r)`. -/
  decode : Reader → Except Bytes SpecJSON
  /-- The error of `url.Parse` when there is no scheme before the colon. -/
  missingScheme : Bytes → Bytes
  /-- The error of `url.Parse` about anything but the scheme. -/
  urlError : Bytes → Option Bytes
  /-- What `%q` makes of a string, and of a parsed URL. -/
  quote : Bytes → Bytes
  quoteURL : Bytes → Bytes
  /-- `http.StatusText`. -/
  statusText : Nat → Bytes

/-- `url.Parse`, of whose result only the scheme is looked at. -/
def parseURL (lib : Libs) (raw : Bytes) : Except Bytes Bytes :=
  match getScheme [] raw with
  | none => .error (lib.missingScheme raw)
  | some scheme =>
    match lib.urlError raw with
    | some err => .error err
    | none => .ok scheme

/-- `remoteBooter`. The key is not looked at but by `secretbox`. -/
structure RemoteBooter where
  lib : Libs
  urlPrefix : Bytes

namespace RemoteBooter

/-- The constructor `RemoteBooter`, apart from the key. -/
def new (lib : Libs) (url : Bytes) : RemoteBooter :=
  let url := if (ascii "/").isSuffixOf url then url else url ++ ascii "/"
  { lib, urlPrefix := url ++ ascii "v1" }

variable (b : RemoteBooter)

/-- The API endpoint for a machine. -/
def bootURL (hw : Bytes) : Bytes := b.urlPrefix ++ ascii "/boot/" ++ hardwareAddrString hw

/-- The check of a URL in `getSpec`: it parses and is absolute. -/
def checkAbsolute (reqURL what raw quoted : Bytes) : Except Bytes Unit :=
  match parseURL b.lib raw with
  | .error err => .error (ascii "non-url " ++ b.lib.quote raw ++ ascii " provided by " ++ reqURL ++
      ascii " for " ++ what ++ ascii ": " ++ err)
  | .ok scheme =>
    if scheme = [] then .error (what ++ ascii " URL " ++ quoted ++ ascii " provided by " ++
      reqURL ++ ascii " is not absolute")
    else .ok ()

/-- The check of the kernel URL, which prints the parsed URL. -/
def checkKernel (reqURL kernel : Bytes) : Except Bytes Unit :=
  b.checkAbsolute reqURL (ascii "kernel") kernel (b.lib.quoteURL kernel)

/-- The check of one initrd URL, which prints the string. -/
def checkInitrd (reqURL img : Bytes) : Except Bytes Unit :=
  b.checkAbsolute reqURL (ascii "initrd") img (b.lib.quote img)

/-- The loop over the initrd URLs. -/
def checkInitrds (reqURL : Bytes) : List Bytes → Except Bytes Unit
  | [] => .ok ()
  | img :: rest =>
    match b.checkInitrd reqURL img with
    | .error err => .error err
    | .ok _ => checkInitrds reqURL rest

/-- `getSpec` on the response of the API server. -/
def checkSpec (reqURL : Bytes) (resp : HTTPResponse) : Except Bytes SpecJSON :=
  if resp.statusCode ≠ 200 then
    .error (reqURL ++ ascii ": " ++ b.lib.statusText resp.statusCode)
  else
    match b.lib.decode resp.body with
    | .error err => .error (ascii "non-json response from " ++ reqURL ++ ascii ": " ++ err)
    | .ok r =>
      match b.checkKernel reqURL r.kernel with
      | .error err => .error err
      | .ok _ =>
        match b.checkInitrds reqURL r.initrd with
        | .error err => .error err
        | .ok _ => .ok r

/-- `getSpec`. -/
def getSpec (hw : Bytes) : Program (Except Bytes SpecJSON) := do
  match ← clientGet (b.bootURL hw) with
  | .error err => pure (.error err)
  | .ok resp => pure (b.checkSpec (b.bootURL hw) resp)

/-- `ShouldBoot`. -/
def shouldBoot (hw : Bytes) : Program (Except Bytes Unit) := do
  match ← b.getSpec hw with
  | .error err => pure (.error err)
  | .ok _ => pure (.ok ())

/-- `signURL`: the nonce, followed by the sealed URL. -/
def signURL (u : Bytes) : Program (Except Bytes Bytes) := do
  match ← readNonce with
  | .error err =>
    pure (.error (ascii "could not read randomness for signing nonce: " ++ err))
  | .ok nonce =>
    let box ← secretboxSeal nonce u
    pure (.ok (nonce.bytes ++ box))

/-- The loop over the initrds in `BootSpec`. -/
def signURLs : List Bytes → Program (Except Bytes (List Bytes))
  | [] => pure (.ok [])
  | img :: rest => do
    match ← signURL img with
    | .error err => pure (.error err)
    | .ok initrd =>
      match ← signURLs rest with
      | .error err => pure (.error err)
      | .ok initrds => pure (.ok (initrd :: initrds))

/-- `BootSpec`. The slice of initrds grows by `append` and nothing else refers to it, so it is
made when it is complete. -/
def bootSpec (hw : Bytes) : Program (Except Bytes BootSpec) := do
  match ← b.getSpec hw with
  | .error err => pure (.error err)
  | .ok r =>
    match ← signURL r.kernel with
    | .error err => pure (.error err)
    | .ok kernel =>
      match ← signURLs r.initrd with
      | .error err => pure (.error err)
      | .ok initrds =>
        let initrd ← makeSlice initrds
        pure (.ok { kernel, initrd, cmdline := r.cmdline })

/-- The front of a signed blob. -/
def nonceOf (signed : Bytes) (h : 24 ≤ signed.length) : Nonce :=
  ⟨signed.take 24, by rw [List.length_take]; omega⟩

/-- `getURL`. -/
def getURL (signed : Bytes) : Program (Except Bytes Bytes) :=
  if h : 24 ≤ signed.length then do
    match ← secretboxOpen (nonceOf signed h) (signed.drop 24) with
    | none => pure (.error (ascii "signature verification failed"))
    | some out => pure (.ok out)
  else pure (.error (ascii "signed blob too short to be valid"))

/-- `File`. -/
def file (id : Bytes) : Program (Except Bytes (Reader × Bytes)) := do
  match ← getURL id with
  | .error err => pure (.error err)
  | .ok u =>
    match ← httpGet u with
    | .error err => pure (.error err)
    | .ok resp => pure (.ok (resp.body, u))

/-- `remoteBooter` as a `Booter`. -/
def booter : Booter where
  shouldBoot := b.shouldBoot
  bootSpec := b.bootSpec
  file := file

end RemoteBooter

/-! ## An API server that names two files -/

/-- What it answers. -/
def twoFilesJSON : Bytes :=
  ascii "\x7b\"kernel\": \"http://h/k\", \"initrd\": [\"http://h/i\"], \"cmdline\": \"quiet\"\x7d"

/-- A booter whose decoder knows this one answer. -/
def twoFiles : RemoteBooter where
  lib :=
    { decode := fun body =>
        if twoFilesJSON.isPrefixOf body.content then
          .ok ⟨ascii "http://h/k", [ascii "http://h/i"], ascii "quiet"⟩
        else .error (ascii "unexpected end of JSON input")
      missingScheme := id
      urlError := fun _ => none
      quote := id
      quoteURL := id
      statusText := fun _ => [] }
  urlPrefix := ascii "http://api/v1"

/-- The nonce that is drawn as the `n`-th. -/
def nthNonce (n : Nat) : Nonce := ⟨List.replicate 24 (UInt8.ofNat n), List.length_replicate⟩

/-- Nonces that count up, and files that hold their own name. -/
def countingOutside : Outside Nat where
  apiGet w _ := (.ok ⟨200, ⟨twoFilesJSON, .eof⟩⟩, w)
  random w := (.ok (nthNonce w), w + 1)
  httpGet w url := (.ok ⟨200, ⟨url, .eof⟩⟩, w)
  openFile w path := (.ok ⟨path, .eof⟩, w)

end Pixiecore.Api
