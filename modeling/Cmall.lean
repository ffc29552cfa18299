import Cmall.ActiveUsers
import Cmall.AsyncConnect
import Cmall.Bootstrap
import Cmall.DecimalText
import Cmall.Footprint.Answers
import Cmall.FormUrlencoded
import Cmall.GoodsFile
import Cmall.GoodsLine
import Cmall.HeaderHelper
import Cmall.HttpDate
import Cmall.HttpStaticFileHandle
import Cmall.Httpc
import Cmall.ListenEndpoint
import Cmall.MerchantGitRepo
import Cmall.Neteasesdk
import Cmall.Numbered
import Cmall.Numeric
import Cmall.Paging
import Cmall.Prepay
import Cmall.QsIterator
import Cmall.Safety.ActiveIndex
import Cmall.Safety.AdministratorLink
import Cmall.Safety.BannedUser
import Cmall.Safety.CartAdditions
import Cmall.Safety.Cookies
import Cmall.Safety.DatabaseRetries
import Cmall.Safety.DatabaseUpdates
import Cmall.Safety.DecimalRendering
import Cmall.Safety.Decisions
import Cmall.Safety.FrontMatter
import Cmall.Safety.GoodsMetadata
import Cmall.Safety.HttpClient
import Cmall.Safety.HttpDates
import Cmall.Safety.HttpResponses
import Cmall.Safety.IndexGoods
import Cmall.Safety.ListPages
import Cmall.Safety.ListenAddresses
import Cmall.Safety.LoginPaths
import Cmall.Safety.LogoutEnds
import Cmall.Safety.MerchantApproval
import Cmall.Safety.MerchantIsolation
import Cmall.Safety.MerchantRecord
import Cmall.Safety.MetadataLines
import Cmall.Safety.Notifications
import Cmall.Safety.OneClickLogin
import Cmall.Safety.OnePending
import Cmall.Safety.OptionFiles
import Cmall.Safety.OrderPricing
import Cmall.Safety.OrderStatus
import Cmall.Safety.PaidInFull
import Cmall.Safety.ParallelConnect
import Cmall.Safety.PayNotifications
import Cmall.Safety.PaymentConfirmed
import Cmall.Safety.PaymentLock
import Cmall.Safety.ProductLookups
import Cmall.Safety.QueryParameters
import Cmall.Safety.RangeResponses
import Cmall.Safety.RequestErrors
import Cmall.Safety.SandboxAnswers
import Cmall.Safety.SandboxConnect
import Cmall.Safety.SandboxFiles
import Cmall.Safety.ScriptEnvironment
import Cmall.Safety.SearchGoods
import Cmall.Safety.SearchIndex
import Cmall.Safety.SelectionRoundTrip
import Cmall.Safety.SessionRoundTrip
import Cmall.Safety.SettledOrders
import Cmall.Safety.SiteCaching
import Cmall.Safety.StoredIdentity
import Cmall.Safety.UriCoding
import Cmall.Safety.UrlCursor
import Cmall.Safety.UrlParser
import Cmall.Safety.UserIsolation
import Cmall.Safety.VerifyCodes
import Cmall.Safety.WebsocketReplies
import Cmall.Safety.WholeUris
import Cmall.Safety.WxpayAmounts
import Cmall.Safety.WxpayConfig
import Cmall.TimedMap
import Cmall.UrlCursor
