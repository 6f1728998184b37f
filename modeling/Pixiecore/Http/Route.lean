import Pixiecore.Http.Server

/-!
# Which handler a path goes to

The three calls of `http.HandleFunc` in `ServeHTTP` (`http/http.go:121-136`) and what the
`ServeMux` of `net/http` makes of them: a path that is not in its clean form is redirected to that
form, a pattern that ends with a slash stands for everything below it, the longest pattern wins, and
a directory without its slash is redirected.

This is the `ServeMux` of the Go releases of the program's own time, whose `Handle` enters the
redirect of a directory into the table of patterns. In later releases `redirectToPathSlash` has
taken the place of that entry, and a path such as `/f/.` goes to `/f/` at once instead of by way of
`/f`; no path that a boot asks for is concerned.
-/

namespace Pixiecore.Http

open Api

/-! ## Clean paths -/

/-- One element of a path, as `path.Clean` treats it. -/
def cleanStep (elems : List Bytes) (elem : Bytes) : List Bytes :=
  if elem = [] ∨ elem = ascii "." then elems
  else if elem = ascii ".." then elems.dropLast
  else elems ++ [elem]

/-- `path.Clean`, of the path that consists of a slash and `rest`. -/
def clean (rest : Bytes) : Bytes := slash :: join [slash] ((rest.splitOn slash).foldl cleanStep [])

/-- `cleanPath` of `net/http`. -/
def cleanPath (path : Bytes) : Bytes :=
  let rest := if path.head? = some slash then path.drop 1 else path
  let cleaned := clean rest
  if path.getLast? = some slash ∧ cleaned ≠ [slash] then cleaned ++ [slash] else cleaned

/-! ## Patterns -/

/-- `pathMatch` of `net/http`. -/
def pathMatch (pattern path : Bytes) : Bool :=
  if pattern.getLast? = some slash then pattern.isPrefixOf path else pattern == path

/-- What is registered for a pattern. -/
inductive Route where
  | ldlinux
  | pxelinuxConfig
  | file
  | redirect (url : Bytes)
  deriving DecidableEq, Repr

/-- The patterns, with the redirects that a pattern with a slash at its end brings along. -/
def routes : List (Bytes × Route) :=
  [(ascii "/ldlinux.c32", .ldlinux),
    (ascii "/pxelinux.cfg/", .pxelinuxConfig),
    (ascii "/pxelinux.cfg", .redirect (ascii "/pxelinux.cfg/")),
    (ascii "/f/", .file),
    (ascii "/f", .redirect (ascii "/f/"))]

/-- The longer of two patterns; the first one if they are of one length. -/
def longer (best : Option (Bytes × Route)) (e : Bytes × Route) : Option (Bytes × Route) :=
  match best with
  | none => some e
  | some b => if b.1.length < e.1.length then some e else some b

/-- `match` of the `ServeMux`. -/
def route (path : Bytes) : Option Route :=
  ((routes.filter (fun e => pathMatch e.1 path)).foldl longer none).map Prod.snd

/-- What comes back for a request. -/
inductive Served where
  | redirect (url : Bytes)
  | response (r : Response)
  deriving DecidableEq, Repr

/-- The response of a handler, as what comes back. -/
def respond (serve : Request → Program Response) (r : Request) : Program Served := do
  let resp ← serve r
  pure (.response resp)

/-- What a server with these handlers gives for `r.URL.Path`: the path is cleaned before any pattern
is looked at. -/
def dispatch (serve : Request → Program Response) (path : Bytes) : Program Served :=
  if cleanPath path ≠ path then pure (.redirect (cleanPath path))
  else
    match route path with
    | none => pure (.response (httpError (ascii "404 page not found") 404))
    | some (.redirect url) => pure (.redirect url)
    | some .ldlinux => respond serve .ldlinux
    | some .pxelinuxConfig => respond serve (.pxelinuxConfig path)
    | some .file => respond serve (.file path)

/-- The server for a request of the given `r.URL.Path`. -/
def Server.serveHTTP (s : Server) (path : Bytes) : Program Served := dispatch s.serve path

example : cleanPath (ascii "//f/../pxelinux.cfg/./x/") = ascii "/pxelinux.cfg/x/" := by decide
example : route (ascii "/f/AA") = some .file := by decide

/-! ## Paths that are as they should be -/

section Handlers

variable (serve : Request → Program Response)

end Handlers

end Pixiecore.Http
