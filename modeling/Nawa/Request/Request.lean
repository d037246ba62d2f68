import Nawa.Lib.Multimap
import Nawa.RequestHandler.Http

/-!
# What an application reads of a request

`nawa::Request` with its environment, its GET, POST and COOKIE variables and the files of its POST
data, as they are made of the container of a request. Several variables may have one name, and
the order in which their values come up is not specified.
-/

namespace Nawa

/-- `File::size`. -/
def PostFile.size (f : PostFile) : Nat := f.content.length

/-- `File::toString`. -/
def PostFile.toString (f : PostFile) : Bytes := f.content

namespace request

open Lib (AssocMap)
open Lib.Multimap

structure Env where
  environment : AssocMap Bytes Bytes

namespace Env

/-- `operator[]`. -/
def get (env : Env) (envVar : Bytes) : Bytes := (env.environment.lookup envVar).getD []

def getRequestPath (env : Env) : List Bytes := utils.splitPath (env.get (bytes "REQUEST_URI"))

end Env

/-! ## Variables -/

inductive Source where
  | get
  | post
  | cookie
  deriving DecidableEq

structure GPC where
  dataMap : List (Bytes × Bytes)

namespace GPC

def ofContainer (requestInit : RequestInitContainer) : Source → GPC
  | .cookie => ⟨requestInit.cookieVars⟩
  | .post => ⟨requestInit.postVars⟩
  | .get => ⟨requestInit.getVars⟩

variable (o : Order Bytes Bytes) (gpc : GPC) (gpcVar : Bytes)

/-- `operator[]`. -/
def get : Bytes := (find o gpc.dataMap gpcVar).getD []

def getVector : List Bytes := equalRange o gpc.dataMap gpcVar

def count : Nat := Lib.Multimap.count gpc.dataMap gpcVar

/-- `getMultimap`, and what lies between `begin` and `end`. -/
def getMultimap : List (Bytes × Bytes) := o.order gpc.dataMap

/-- `operator bool`. -/
def toBool : Bool := !gpc.dataMap.isEmpty

end GPC

structure Post extends GPC where
  contentType : Bytes
  rawPost : Option Bytes
  fileMap : List (Bytes × PostFile)

namespace Post

def ofContainer (requestInit : RequestInitContainer) : Post where
  toGPC := GPC.ofContainer requestInit .post
  contentType := requestInit.postContentType
  rawPost := requestInit.rawPost
  fileMap := requestInit.postFiles

variable (o : Order Bytes PostFile) (post : Post) (key : Bytes)

/-- `operator bool`, which also looks at the files. -/
def toBool : Bool := !(post.dataMap.isEmpty && post.fileMap.isEmpty)

def getRaw : Option Bytes := post.rawPost

def getContentType : Bytes := post.contentType

def hasFiles : Bool := !post.fileMap.isEmpty

def getFile : Option PostFile := find o post.fileMap key

def getFileVector : List PostFile := equalRange o post.fileMap key

def countFiles : Nat := Lib.Multimap.count post.fileMap key

def getFileMultimap : List (Bytes × PostFile) := o.order post.fileMap

end Post

/-- `nawa::Request`. -/
structure Request where
  env : Env
  get : GPC
  post : Post
  cookie : GPC

def Request.ofContainer (requestInit : RequestInitContainer) : Request where
  env := ⟨requestInit.environment⟩
  get := GPC.ofContainer requestInit .get
  post := Post.ofContainer requestInit
  cookie := GPC.ofContainer requestInit .cookie

end request

end Nawa
