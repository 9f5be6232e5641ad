import BinanceFutures.Gateway.Settings
import Mathlib.Data.List.Induction

/-! # Reference data

    What the exchange says about its instruments, and what is published of it. An instrument that the
    dispatcher discards has its reference data published, marked as such, and no market status. -/

namespace BinanceFutures

inductive SecurityType where | undefined | swap | futures
  deriving DecidableEq

inductive TradingStatus where | undefined | preOpen | «open» | halt | preClose | close | endOfDay
  deriving DecidableEq

namespace Json

inductive ContractType where
  | undefinedInternal | unknownInternal | perpetual | currentQuarter | nextQuarter
  | currentQuarterDelivering | perpetualDelivering | tradifiPerpetual | currentWeek | nextWeek
  deriving DecidableEq

inductive SymbolStatus where
  | undefinedInternal | unknownInternal | preTrading | trading | postTrading | endOfDay | halt
  | auctionMatch | «break» | settling | pendingTrading | delivering | preSettle | tradingHalt
  | tradingCancelOnly | preDelivering
  deriving DecidableEq

inductive ContractStatus where
  | undefinedInternal | unknownInternal | preTrading | trading | postTrading | endOfDay | halt
  | auctionMatch | «break» | settling | pendingTrading | delivering | preDelivering | close
  | tradingCancelOnly
  deriving DecidableEq

/-- `map`, of a contract type -/
def ContractType.map : ContractType → SecurityType
  | .undefinedInternal | .unknownInternal => .undefined
  | .perpetual | .tradifiPerpetual => .swap
  | .currentQuarter | .nextQuarter | .currentQuarterDelivering | .perpetualDelivering
  | .currentWeek | .nextWeek => .futures

/-- `map`, of the status of a symbol -/
def SymbolStatus.map : SymbolStatus → TradingStatus
  | .undefinedInternal | .unknownInternal | .delivering | .preDelivering => .undefined
  | .trading | .preSettle => .open
  | .halt | .tradingHalt | .tradingCancelOnly => .halt
  | .break | .postTrading => .close
  | .endOfDay => .endOfDay
  | .preTrading | .auctionMatch | .pendingTrading => .preOpen
  | .settling => .preClose

/-- `map`, of the status of a contract -/
def ContractStatus.map : ContractStatus → TradingStatus
  | .undefinedInternal | .unknownInternal | .delivering | .preDelivering => .undefined
  | .trading => .open
  | .halt => .halt
  | .break | .postTrading | .close => .close
  | .endOfDay => .endOfDay
  | .preTrading | .auctionMatch | .pendingTrading | .tradingCancelOnly => .preOpen
  | .settling => .preClose

/-- `trading_status_helper` -/
def tradingStatusHelper (symbolStatus : SymbolStatus) (contractStatus : ContractStatus) :
    TradingStatus :=
  if symbolStatus ≠ .undefinedInternal then symbolStatus.map else contractStatus.map

inductive FilterType where
  | undefinedInternal | unknownInternal | priceFilter | percentPrice | lotSize | minNotional
  | icebergParts | marketLotSize | maxNumOrders | maxNumAlgoOrders | maxNumIcebergOrders | maxPosition
  | exchangeMaxNumOrders | exchangeMaxNumAlgoOrders | positionRiskControl
  deriving DecidableEq

structure Filter where
  filterType : FilterType
  tickSize : Double := nan
  minQty : Double := nan
  maxQty : Double := nan
  stepSize : Double := nan
  deriving DecidableEq

/-- `json::Symbol`, an item of an exchange info -/
structure Symbol where
  symbol : String
  pair : String := ""
  contractType : ContractType := .undefinedInternal
  status : SymbolStatus := .undefinedInternal
  baseAsset : String := ""
  quoteAsset : String := ""
  marginAsset : String := ""
  baseAssetPrecision : ℕ := 0
  quotePrecision : ℕ := 0
  filters : List Filter := []
  contractStatus : ContractStatus := .undefinedInternal
  contractSize : Double := nan
  deriving DecidableEq

end Json

structure ReferenceData where
  exchange : String
  symbol : String
  securityType : SecurityType
  baseCurrency : String
  quoteCurrency : String
  settlementCurrency : String
  marginCurrency : String
  tickSize : Double
  multiplier : Double
  minNotional : Double
  minTradeVol : Double
  maxTradeVol : Double
  tradeVolStepSize : Double
  underlying : String
  discard : Bool
  deriving DecidableEq

structure MarketStatus where
  exchange : String
  symbol : String
  tradingStatus : TradingStatus
  deriving DecidableEq

namespace ReferenceData

/-- `std::pow(10.0, -precision)` -/
def power (precision : ℕ) : Double := some (1 / 10 ^ precision)

/-- The sizes of an instrument. -/
structure Sizes where
  tickSize : Double
  minTradeVol : Double
  maxTradeVol : Double
  tradeVolStepSize : Double

/-- The fall-back values. -/
def fallBack (item : Json.Symbol) : Sizes where
  tickSize := power item.quotePrecision
  minTradeVol := power item.baseAssetPrecision
  maxTradeVol := nan
  tradeVolStepSize := power item.baseAssetPrecision

def applyFilter (sizes : Sizes) (filter : Json.Filter) : Sizes :=
  match filter.filterType with
  | .priceFilter => { sizes with tickSize := filter.tickSize }
  | .lotSize => { sizes with
      minTradeVol := filter.minQty, maxTradeVol := filter.maxQty
      tradeVolStepSize := filter.stepSize }
  | _ => sizes

def sizes (item : Json.Symbol) : Sizes := item.filters.foldl applyFilter (fallBack item)

end ReferenceData

/-- `Rest::operator()(ExchangeInfoAck)`, the reference data of an item. -/
def referenceData (settings : Settings) (item : Json.Symbol) (discard : Bool) : ReferenceData where
  exchange := settings.exchange
  symbol := item.symbol
  securityType := item.contractType.map
  baseCurrency := item.baseAsset
  quoteCurrency := item.quoteAsset
  settlementCurrency := if item.marginAsset = item.baseAsset then item.quoteAsset else item.baseAsset
  marginCurrency := item.marginAsset
  tickSize := (ReferenceData.sizes item).tickSize
  multiplier := item.contractSize
  minNotional := nan
  minTradeVol := (ReferenceData.sizes item).minTradeVol
  maxTradeVol := (ReferenceData.sizes item).maxTradeVol
  tradeVolStepSize := (ReferenceData.sizes item).tradeVolStepSize
  underlying := item.pair
  discard := discard

/-- The market status of an item. -/
def marketStatus (settings : Settings) (item : Json.Symbol) : MarketStatus where
  exchange := settings.exchange
  symbol := item.symbol
  tradingStatus := Json.tradingStatusHelper item.status item.contractStatus

end BinanceFutures
