import BinanceFutures.Gateway.Oms
import BinanceFutures.Protocol.Encoder

/-! # API

    Where the requests to the exchange go, and what a request is made of.

        fapi ─▶ USD-M futures   /fapi/…   /papi/v1/um/…
        dapi ─▶ COIN-M futures  /dapi/…   /papi/v1/cm/… -/

namespace BinanceFutures

/-! ### `API` -/

structure API.MarketData where
  exchangeInfo : String
  depth : String
  kline : String
  /-- Not there for COIN-M futures. -/
  assetIndex : String

/-- The paths of the accounts that are no portfolios; a portfolio has `position_risk`, and no
    `countdown_cancel_all`. -/
structure API.Simple where
  accountBalance : String
  accountStatus : String
  openOrders : String
  userTrades : String
  order : String
  allOpenOrders : String
  countdownCancelAll : String

structure API.Papi where
  accountBalance : String
  accountStatus : String
  positionRisk : String
  openOrders : String
  userTrades : String
  order : String
  allOpenOrders : String

structure API where
  marketData : API.MarketData
  simple : API.Simple
  papi : API.Papi
  modifyOrderFull : Bool
  selfTradePrevention : Json.SelfTradePrevention

/-- USD-M futures -/
def API.usdMFutures (selfTradePrevention : Json.SelfTradePrevention) : API where
  marketData := {
    exchangeInfo := "/fapi/v1/exchangeInfo", depth := "/fapi/v1/depth", kline := "/fapi/v1/klines"
    assetIndex := "/fapi/v1/assetIndex" }
  simple := {
    accountBalance := "/fapi/v2/balance", accountStatus := "/fapi/v2/account"
    openOrders := "/fapi/v1/openOrders", userTrades := "/fapi/v1/userTrades", order := "/fapi/v1/order"
    allOpenOrders := "/fapi/v1/allOpenOrders", countdownCancelAll := "/fapi/v1/countdownCancelAll" }
  papi := {
    accountBalance := "/papi/v1/balance", accountStatus := "/papi/v1/account"
    positionRisk := "/papi/v1/um/positionRisk", openOrders := "/papi/v1/um/openOrders"
    userTrades := "/papi/v1/um/userTrades", order := "/papi/v1/um/order"
    allOpenOrders := "/papi/v1/um/allOpenOrders" }
  modifyOrderFull := true
  selfTradePrevention := selfTradePrevention

/-- COIN-M futures -/
def API.coinMFutures (selfTradePrevention : Json.SelfTradePrevention) : API where
  marketData := {
    exchangeInfo := "/dapi/v1/exchangeInfo", depth := "/dapi/v1/depth", kline := "/dapi/v1/klines"
    assetIndex := "" }
  simple := {
    accountBalance := "/dapi/v1/balance", accountStatus := "/dapi/v1/account"
    openOrders := "/dapi/v1/openOrders", userTrades := "/dapi/v1/userTrades", order := "/dapi/v1/order"
    allOpenOrders := "/dapi/v1/allOpenOrders", countdownCancelAll := "/dapi/v1/countdownCancelAll" }
  papi := {
    accountBalance := "/papi/v1/balance", accountStatus := "/papi/v1/account"
    positionRisk := "/papi/v1/cm/positionRisk", openOrders := "/papi/v1/cm/openOrders"
    userTrades := "/papi/v1/cm/userTrades", order := "/papi/v1/cm/order"
    allOpenOrders := "/papi/v1/cm/allOpenOrders" }
  modifyOrderFull := false
  selfTradePrevention := selfTradePrevention

/-- `API::create`; the self trade prevention has been parsed. -/
def API.create (api : String) (selfTradePrevention : Json.SelfTradePrevention) : Except Exn API :=
  if api = "fapi" then .ok (.usdMFutures selfTradePrevention)
  else if api = "dapi" then .ok (.coinMFutures selfTradePrevention)
  else .error (.runtimeError ("Unknown api=\"" ++ api ++ "\""))

/-! ### `web::rest::Request` -/

inductive Method where | get | post | put | delete
  deriving DecidableEq

inductive ContentType where | undefined | applicationXWwwFormUrlencoded
  deriving DecidableEq

inductive QualityOfService where | undefined | immediate
  deriving DecidableEq

/-- What is accepted is always JSON. -/
structure HttpRequest where
  method : Method
  path : String
  query : String
  contentType : ContentType := .undefined
  headers : String
  body : String := ""
  qualityOfService : QualityOfService := .undefined
  requestId : String
  deriving DecidableEq

end BinanceFutures
