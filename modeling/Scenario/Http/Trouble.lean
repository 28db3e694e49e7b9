import Scenario.Binary64.Decimal

/-!
# Trouble with an exchange

Why a request got no response. `Trouble.detail` is what the transport says, `Trouble.reason` how a
step reports it.
-/

namespace Scenario

namespace Http

/-- Why a request got no response. -/
inductive Trouble where
  /-- The request could not be put together. -/
  | unbuildable
  /-- The address is none of the web. -/
  | badScheme (url : String)
  | notConnected (url : String)
  /-- The connection ended without a response. -/
  | broken (url : String)
  | tooManyRedirects (url : String)
  | timedOut (url : String) (limit : Binary64)

/-- What the transport says. -/
def Trouble.detail : Trouble → String
  | unbuildable => "builder error"
  | badScheme url => "builder error for url (" ++ url ++ ")"
  | notConnected url => "error sending request for url (" ++ url ++ ")"
  | broken url => "error sending request for url (" ++ url ++ ")"
  | tooManyRedirects url => "error following redirect for url (" ++ url ++ ")"
  | timedOut url _ => "error sending request for url (" ++ url ++ ")"

/-- How a step reports the trouble. -/
def Trouble.reason : Trouble → String
  | timedOut _ limit => "no response within " ++ Binary64.plainStyle limit ++ " s"
  | notConnected url => "connection failed: " ++ (notConnected url).detail
  | other => "request error: " ++ other.detail

end Http

end Scenario
