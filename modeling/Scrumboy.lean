import Scrumboy.Limit.AdmissionRuns
import Scrumboy.Auth.RequestLimits
import Scrumboy.HttpApi.Hub
import Scrumboy.HttpApi.DeliveryRuns
import Scrumboy.HttpApi.EmailRuns
import Scrumboy.HttpApi.PublicStreams
import Scrumboy.Store.LinkPicker
import Scrumboy.Store.TagDeletion
import Scrumboy.Store.BacklogSize
import Scrumboy.Ics.Duration
import Scrumboy.PublicOrigin.Resolver
import Scrumboy.Store.Throughput
import Scrumboy.Store.RankBounds
import Scrumboy.Store.EditOrder
import Scrumboy.Store.Histories
import Scrumboy.Store.PublicSecrecy
import Scrumboy.Store.TagFilters
import Scrumboy.Store.SprintRuns
import Scrumboy.Application.McpPages
import Scrumboy.Auth.AccountRuns
import Scrumboy.Auth.Owners
import Scrumboy.Auth.MobileOIDC
import Scrumboy.Auth.ResetRuns
import Scrumboy.Application.AgendaFlights
import Scrumboy.Application.AssetFiles
import Scrumboy.Backup.PresenceFlags
import Scrumboy.Backup.StoryTags
import Scrumboy.Backup.WallRuns
import Scrumboy.Backup.ArchiveBudgets
import Scrumboy.Application.ArchiveFiles
import Scrumboy.Backup.PriorityRuns
import Scrumboy.Backup.DoneRuns
import Scrumboy.Backup.SlugRuns
import Scrumboy.Voice.CreateConsent
import Scrumboy.Oidc.ReturnTo
import Scrumboy.Imagecheck.JpegStream
import Scrumboy.Imagecheck.Apng
import Scrumboy.Imagecheck.GifGrammar
import Scrumboy.Imagecheck.Validate
import Scrumboy.Web.SseClient
import Scrumboy.Web.WallRealtime
import Scrumboy.Web.BoardLoads
import Scrumboy.Web.PublicBoard
import Scrumboy.Application.PublicSearch
import Scrumboy.Application.PublicTagFilters
import Scrumboy.Web.DropLanding
import Scrumboy.Voice.Numbers
import Scrumboy.Voice.TagNames
import Scrumboy.Voice.Vocabulary
import Scrumboy.Store.Listings
import Scrumboy.Migrate.Apply
