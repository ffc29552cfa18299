import Cmall.HttpDate
import Cmall.MerchantGitRepo

/-!
`http_static_file_handle.cpp` with `EMBED_SITE`: the site that is bundled as a zip archive, and
`dos2unixtime` of `http_misc_helper.cpp`.
-/

namespace Cmall.Httpd

/-! ## Stamps of an archive -/

/-- A time of the DOS calendar: years from 1980 to 2107, and two seconds at a time. -/
structure DosTime extends Calendar.Date where
  hour : Nat
  min : Nat
  halfSec : Nat
  yearValid : 1980 ≤ year ∧ year ≤ 2107
  timeValid : hour < 24 ∧ min < 60 ∧ halfSec < 30

/-- The 32 bits of a stamp. -/
def DosTime.stamp (d : DosTime) : Nat :=
  (d.year - 1980).toNat * 2 ^ 25 + (d.month + 1) * 2 ^ 21 + d.day * 2 ^ 16 + d.hour * 2 ^ 11 +
    d.min * 2 ^ 5 + d.halfSec

/-- The seconds of the calendar since 1 January 1970. -/
def DosTime.localTime (d : DosTime) : Int :=
  d.dayNumber * 86400 + d.hour * 3600 + d.min * 60 + d.halfSec * 2

/-- A time zone without changes: the seconds that it is ahead of UTC, less than 25 hours. -/
structure Zone where
  offset : Int
  bounded : -90000 < offset ∧ offset < 90000

/-- The time of the stamp when it is taken as local time. -/
def DosTime.time (zone : Zone) (d : DosTime) : Int := d.localTime - zone.offset

/-- `mktime`; the members may be out of range. -/
def mktime (zone : Zone) (tm : Tm) : Int :=
  (Calendar.monthStart (tm.year + 1900 + tm.mon / 12) (tm.mon % 12).toNat + (tm.mday - 1)) * 86400 +
    tm.hour * 3600 + tm.min * 60 + tm.sec - zone.offset

def dos2unixtime (zone : Zone) (dostime : Nat) : Int :=
  mktime zone {
    year := (dostime >>> 25 : Nat) + 80
    mon := ((dostime >>> 21) &&& 0x0f : Nat) - 1
    mday := ((dostime >>> 16) &&& 0x1f : Nat) + 1
    hour := ((dostime >>> 11) &&& 0x0f : Nat)
    min := ((dostime >>> 5) &&& 0x3f : Nat)
    sec := ((dostime &&& 0x1f) <<< 1 : Nat)
    wday := -1 }

/-- `mime_map`. -/
def mimeMap : List (String × String) :=
  [(".html", "text/html; charset=utf-8"), (".js", "application/javascript"), (".css", "text/css"),
    (".woff", "application/x-font-woff"), (".png", "image/png"), (".svg", "image/svg+xml"),
    (".md", "text/markdown"), (".jpg", "image/jpeg"), (".jpeg", "image/jpeg"),
    (".mp4", "video/mp4"), (".m4v", "video/mp4"), (".mkv", "video/x-matroska"),
    (".flv", "video/x-flv"), (".webp", "images/webp")]

def getMimeTypeFromExtension (extension : String) : String := (mimeMap.lookup extension).getD ""

end Cmall.Httpd

namespace Cmall.StaticFile
open Httpd

/-! ## The archive -/

/-- A file of the archive. -/
structure Entry where
  name : List Char
  dosDate : Nat
  /-- The compression method, `Z_DEFLATED` being 8. -/
  method : Nat
  compressed : List Char
  content : List Char
  /-- `unzOpenCurrentFile2` succeeds, for a raw file or not. -/
  opens : Bool → Bool := fun _ => true

/-- The archive of the site. It has a file, which is the current one after the archive has been
opened. -/
structure Site where
  entries : List Entry
  ne_nil : entries ≠ []
  /-- `unzGetGlobalInfo64` succeeds. -/
  globalInfo : Bool := true

/-- `unzLocateFile` with the default of Unix, which is case sensitive; the name is a C string of
less than `UNZ_MAXFILENAMEINZIP` characters. -/
def unzLocateFile (site : Site) (path : List Char) : Option Entry :=
  let name := path.takeWhile (· ≠ '\x00')
  if 256 ≤ name.length then none else site.entries.find? fun e => e.name = name

def indexHtml : List Char := "index.html".toList

/-- The path of a target without its slash; `substr` throws for the empty target. -/
def pathOf (target : List Char) : Option (List Char) :=
  if target = "/".toList then some indexHtml else StringView.substrFrom target 1

/-- The path that is served, and its file. A file that is not there is replaced by `index.html`, and
the current file stays the first one when that is not there either. -/
def served (site : Site) (path : List Char) : List Char × Entry :=
  match unzLocateFile site path with
  | some e => (path, e)
  | none => (indexHtml, (unzLocateFile site indexHtml).getD (site.entries.head site.ne_nil))

/-! ## The answer -/

/-- What is read of a request; a field that is not there is empty. -/
structure Request where
  target : List Char
  ifModifiedSince : List Char := []
  acceptEncoding : List Char := []
  version : Nat := 11
  keepAlive : Bool := true

structure Response where
  status : Nat
  version : Nat
  expires : List Char
  lastModified : List Char
  contentType : String
  keepAlive : Bool
  contentEncoding : Option String := none
  contentLength : Option Nat := none
  body : List Char := []
  deriving DecidableEq, Repr

/-- The returned status and the response that has been written. -/
structure Answer where
  status : Nat
  written : Option Response := none
  deriving DecidableEq, Repr

/-- `accept_encoding.find("deflate")`. -/
def acceptDeflate (req : Request) : Bool :=
  (StringView.find req.acceptEncoding "deflate".toList 0).isSome

/-- The extension of a path, the last one of its last name. -/
def pathExtension (path : List Char) : String :=
  MerchantGitRepo.extension (String.ofList (path.reverse.takeWhile (· ≠ '/')).reverse)

/-- The fields of a response before the status is decided. -/
def header (zone : Zone) (now : Int) (req : Request) (path : List Char) (e : Entry) : Response where
  status := 200
  version := req.version
  expires := makeHttpLastModified (now + 60)
  lastModified := makeHttpLastModified (dos2unixtime zone e.dosDate)
  contentType := getMimeTypeFromExtension (pathExtension path)
  keepAlive := req.keepAlive

/-- The text behind the value of a field in memory. -/
def crlf : List Char := ['\r', '\n']

/-- What `unzReadCurrentFile` gives in turn, until it gives nothing more. -/
def Entry.read (e : Entry) (raw : Bool) : List Char := if raw then e.compressed else e.content

/-- The whole file, as it is stored if the client takes that. -/
def fullResponse (deflate : Bool) (e : Entry) (res : Response) : Response :=
  if e.method = 8 ∧ deflate then
    { res with
      contentEncoding := some "deflate", contentLength := some e.compressed.length
      body := e.read deflate }
  else { res with contentLength := some e.content.length, body := e.read deflate }

/-- `http_handle_static_file`; `none` when it throws. -/
def httpHandleStaticFile (zone : Zone) (now : Int) (site : Site) (req : Request) : Option Answer :=
  let ifModifiedSince := parseGmtTimeFmt req.ifModifiedSince crlf 0
  if site.globalInfo = false then some { status := 502 }
  else
    (pathOf req.target).map fun path =>
      let (path, e) := served site path
      let res := header zone now req path e
      if ifModifiedSince.1 ∧ dos2unixtime zone e.dosDate ≤ ifModifiedSince.2 then
        { status := 200, written := some { res with status := 304 } }
      else if e.opens (acceptDeflate req) = false then { status := 500 }
      else { status := 200, written := some (fullResponse (acceptDeflate req) e res) }

end Cmall.StaticFile
