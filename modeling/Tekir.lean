import Tekir.Machine
import Tekir.Table
import Tekir.Schema
import Tekir.Statements
import Tekir.AccountQueries
import Tekir.CatQueries
import Tekir.UpdateQueries
import Tekir.NotificationQueries
import Tekir.DeletionQueries
import Tekir.Store
import Tekir.Environment
import Tekir.AccountServices
import Tekir.CatServices
import Tekir.SocialServices
import Tekir.Backend
import Tekir.FollowConflict
import Tekir.GalleryIdentity
import Tekir.Integrity
import Tekir.AsideOperations
import Tekir.ServiceEffects
import Tekir.InboxIsolation
import Tekir.DeletionSafety
import Tekir.DeletionLeftovers
import Tekir.OtpGuessing
import Tekir.CorrectionRace
import Tekir.HelpMarkEligibility
import Tekir.DispatchWorkers
import Tekir.DispatchSimulation
import Tekir.Interleaving
import Tekir.Contracts
import Tekir.Bookkeeping
import Tekir.AccountCalls
import Tekir.CodeSessions
import Tekir.TokenRotation
import Tekir.DeviceLinks
import Tekir.AccountWrites
import Tekir.AccountRace
import Tekir.Keyset
import Tekir.ReadQueries
import Tekir.ReadServices
import Tekir.ContentQueries
import Tekir.Dialects
import Tekir.ContentCalls
import Tekir.ContentRuns
import Tekir.ContentHistory
import Tekir.Base64
import Tekir.Cursors
import Tekir.DiscoverPages
import Tekir.HistoryPages
import Tekir.ResendCooldown
import Tekir.DeviceTokens
import Tekir.Losses
import Tekir.FailedContributions
import Tekir.Creations
import Tekir.CreationHistory
import Tekir.KeyedUploads
import Tekir.KeyedCats
import Tekir.OwnDuplicates
import Tekir.Badges
import Tekir.ClientAccounts
import Tekir.ExpiredTokens
import Tekir.FollowToggles
import Tekir.AddCat
import Tekir.CatPatches
import Tekir.ConfirmedLocation
import Tekir.DiscoverTraversal
import Tekir.FinalSessions
import Tekir.PublishedSubmissions
import Tekir.ServedSessions
import Tekir.TimelineView
import Tekir.BadgeReference
import Tekir.Corrections
import Tekir.UpdateCreation
import Tekir.WriteResponses
import Tekir.ArchiveEffects
import Tekir.Freshness
import Tekir.GalleryCounts
import Tekir.DeviceMerge
import Tekir.DetailView
import Tekir.NotificationsView
import Tekir.SessionRecovery
import Tekir.Bytes
import Tekir.Float64
import Tekir.MediaBoxes
import Tekir.VideoDuration
import Tekir.BadgePermanence
import Tekir.PhoneNumbers
import Tekir.ImageOrientation
import Tekir.JpegExif
import Tekir.JpegSegments
import Tekir.HeaderParsers
import Tekir.Json
import Tekir.ModerationReply
import Tekir.HiddenCats
import Tekir.BlockTransparency
import Tekir.ActiveAlerts
import Tekir.MediaProcessing
import Tekir.ModerationGate
import Tekir.GateErasure
import Tekir.ProgramTraces
import Tekir.ContentGates
import Tekir.LaterCalls
import Tekir.DeletedCats
import Tekir.Attachments
import Tekir.ProcessedOnce
import Tekir.Retries
import Tekir.Decoding
import Tekir.Providers
import Tekir.ProviderContracts
import Tekir.AccountReads
import Tekir.HttpRequests
import Tekir.Handlers
import Tekir.Router
import Tekir.OwnRows
import Tekir.AccountSeparation
import Tekir.HttpRuns
import Tekir.Refusals
import Tekir.NotifierTicks
import Tekir.ReadPrivacy
import Tekir.DiscreetActs
import Tekir.Installations
