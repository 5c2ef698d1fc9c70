import CodeGo.Billing.Rebuild
import CodeGo.Billing.Replay
import CodeGo.Billing.SessionRuns
import CodeGo.Workflow.RefundOnce
import CodeGo.Commerce.ExactCharge
import CodeGo.Commerce.PeriodUsage
import CodeGo.Commerce.FuelQuota
import CodeGo.Gateway.CircuitEvidence
import CodeGo.Bounty.Suspension
import CodeGo.Bounty.Pauses
import CodeGo.Gateway.RelayClosed
import CodeGo.Billing.RealtimeCharge
import CodeGo.Gateway.ClaudeWellFormed
import CodeGo.Gateway.ClaudeToolCalls
import CodeGo.Gateway.ChannelAffinity
import CodeGo.Commerce.BlindBoxStock
import CodeGo.Commerce.ResetOpportunities
import CodeGo.Commerce.ReferralReset
import CodeGo.Commerce.OrderDiscounts
import CodeGo.Identity.DesktopAuthOnce
import CodeGo.Identity.TwoFAGuesses
import CodeGo.Gateway.ClaudeAgreement
import CodeGo.Gateway.ResponsesAgreement
import CodeGo.Gateway.BilledAmount
import CodeGo.BillingExpr.RuleNecessity
import CodeGo.Workflow.TaskPricing
import CodeGo.Billing.TextCharge
import CodeGo.Billing.TieredTokens
import CodeGo.Commerce.ResetTimes
import CodeGo.Commerce.Admission
import CodeGo.Commerce.SettleSpread
import CodeGo.Billing.FundingLots
import CodeGo.Billing.Points
import CodeGo.Platform.LimiterWindow
import CodeGo.Platform.TokenBucket
import CodeGo.Gateway.KeyPolling
import CodeGo.Gateway.ModelMapping
import CodeGo.Gateway.DatabaseChoice
import CodeGo.Gateway.RoutePool
import CodeGo.Gateway.MultiKeys
import CodeGo.Platform.CachexAgreement
import CodeGo.Commerce.GroupBuySettlement
import CodeGo.Commerce.WalletConversion
import CodeGo.Gateway.UpstreamModels
import CodeGo.Gateway.GeminiLinkage
import CodeGo.Gateway.ClaudeContent
import CodeGo.Gateway.OpenAIToClaudeTranslation
import CodeGo.Gateway.OverrideLegacy
import CodeGo.Gateway.UsageShapes
import CodeGo.Platform.SundaySearch
import CodeGo.Gateway.ThinkToContent
import CodeGo.Gateway.StreamScanner
import CodeGo.Identity.SensitiveSearch
import CodeGo.Gateway.ChatToResponses
import CodeGo.Platform.Ssrf
import CodeGo.Commerce.OrderLocks
import CodeGo.Commerce.ZeroHour
import CodeGo.Gateway.FastPricing
import CodeGo.Platform.OptionTables
