import Nawa.RequestHandler.Http

/-!
# Requests to the FastCGI handler

The environment that `FastcgippRequestAdapter::response` makes of the parameters of a request.
The web server hands client headers over as parameters whose names begin with `HTTP_`.
-/

namespace Nawa.FastcgippRequestAdapter

open Lib (AssocMap)

/-- The name of the variable for a parameter: a header gets its own name back, in lower case. -/
def envKey (k : Bytes) : Bytes :=
  if k.take 5 = bytes "HTTP_" then
    utils.replaceChars (utils.toLowercase (k.drop 5)) [('_'.toUInt8, '-'.toUInt8)]
  else k

/-- The variables that are there before the parameters are looked at. -/
def initialVariables (parameters : AssocMap Bytes Bytes) : AssocMap Bytes Bytes :=
  let renvp (k : Bytes) : Bytes := (parameters.lookup k).getD []
  let https := (parameters.lookup (bytes "HTTPS")).isSome
  let baseUrl := (if https then bytes "https://" else bytes "http://") ++ renvp (bytes "HTTP_HOST")
  let requestUri := renvp (bytes "REQUEST_URI")
  (((AssocMap.empty.insert (bytes "content-type") (renvp (bytes "CONTENT_TYPE"))).insert
    (bytes "BASE_URL") baseUrl).insert
    (bytes "FULL_URL_WITH_QS") (baseUrl ++ requestUri)).insert
    (bytes "FULL_URL_WITHOUT_QS") (baseUrl ++ HttpHandler.textBefore '?'.toUInt8 requestUri)

/-- A parameter becomes a variable unless there is one of its name already. -/
def addParameter (environment : AssocMap Bytes Bytes) (e : Bytes × Bytes) :
    AssocMap Bytes Bytes :=
  environment.insertNew (envKey e.1) e.2

/-- The environment, with the parameters in the order in which their map is iterated. -/
def environment (order : HashOrder) (parameters : AssocMap Bytes Bytes) : AssocMap Bytes Bytes :=
  (order.order parameters.entries).foldl addParameter (initialVariables parameters)

example : envKey (bytes "HTTP_USER_AGENT") = bytes "user-agent" := by decide

end Nawa.FastcgippRequestAdapter
