import Headlines.Api.Accepted
import Headlines.Api.Article
import Headlines.Api.Codec
import Headlines.Api.Content
import Headlines.Api.Draft
import Headlines.Api.DraftListing
import Headlines.Api.Event
import Headlines.Api.EventListing
import Headlines.Api.FeedRecommendation
import Headlines.Api.Follow
import Headlines.Api.Keys
import Headlines.Api.Recorded
import Headlines.Api.Registry
import Headlines.Api.Server
import Headlines.Api.Service
import Headlines.Articles.Drafting
import Headlines.Articles.Family
import Headlines.Articles.Handover
import Headlines.Articles.Law
import Headlines.Articles.Lawful
import Headlines.Articles.Origin
import Headlines.Articles.Reading
import Headlines.Articles.Transactions
import Headlines.Articles.Verified
import Headlines.Auth.Authorize
import Headlines.Auth.Encodings
import Headlines.Auth.Header
import Headlines.Auth.InProcessTso
import Headlines.Auth.Interceptor
import Headlines.Auth.KeyResolver
import Headlines.Auth.LocalClock
import Headlines.Auth.NonceStore
import Headlines.Auth.Strategy
import Headlines.Auth.TrustedSubject
import Headlines.Autocommit.Alone
import Headlines.Autocommit.Past
import Headlines.Autocommit.Program
import Headlines.Autocommit.Settling
import Headlines.Autocommit.System
import Headlines.Autocommit.Trace
import Headlines.Build.AuthTable
import Headlines.Build.Descriptors
import Headlines.Build.Policies
import Headlines.Build.Reading
import Headlines.Build.Requirement
import Headlines.Build.Scanner
import Headlines.Core.Auth
import Headlines.Core.DateTime
import Headlines.Core.Error
import Headlines.Core.Json
import Headlines.Core.Repo
import Headlines.Core.Subject
import Headlines.Core.Tso
import Headlines.Core.Utf8
import Headlines.Gateway.Articles
import Headlines.Gateway.AttachAuth
import Headlines.Gateway.Events
import Headlines.Gateway.Visible
import Headlines.Keyset.Segment
import Headlines.Machine.Run
import Headlines.Patching.Patch
import Headlines.Proto.Nesting
import Headlines.Proto.Requests
import Headlines.Proto.Responses
import Headlines.Proto.Wire
import Headlines.Protobuf.Encoding
import Headlines.Protobuf.Frames
import Headlines.ReadCommitted.Alone
import Headlines.ReadCommitted.Atomic
import Headlines.ReadCommitted.Calls
import Headlines.ReadCommitted.Confined
import Headlines.ReadCommitted.Ending
import Headlines.ReadCommitted.Program
import Headlines.ReadCommitted.Protocol
import Headlines.ReadCommitted.Reading
import Headlines.ReadCommitted.Rows
import Headlines.ReadCommitted.Sound
import Headlines.ReadCommitted.System
import Headlines.ReadCommitted.Throwing
import Headlines.RowVersions.Atomic
import Headlines.RowVersions.Replacing
import Headlines.RowVersions.System
import Headlines.RowVersions.Table
import Headlines.RowVersions.Transactions
import Headlines.RowVersions.Whole
import Headlines.Rust.LruCache
import Headlines.Rust.Str
import Headlines.Seed.Markdown
import Headlines.Server.Wiring
import Headlines.Soundness.AccountMasks
import Headlines.Soundness.AccountUpdates
import Headlines.Soundness.ArticleReads
import Headlines.Soundness.AuthCalls
import Headlines.Soundness.AuthTable
import Headlines.Soundness.CanonicalHash
import Headlines.Soundness.CanonicalQuery
import Headlines.Soundness.CanonicalString
import Headlines.Soundness.ContentDepth
import Headlines.Soundness.ContentValidation
import Headlines.Soundness.Deletion
import Headlines.Soundness.Deployment
import Headlines.Soundness.DraftHandover
import Headlines.Soundness.DraftPrivacy
import Headlines.Soundness.DraftPublication
import Headlines.Soundness.DraftValidity
import Headlines.Soundness.EventBatches
import Headlines.Soundness.EventDrain
import Headlines.Soundness.EventFidelity
import Headlines.Soundness.EventFilters
import Headlines.Soundness.Expiry
import Headlines.Soundness.FailedCalls
import Headlines.Soundness.FeedReplacement
import Headlines.Soundness.FieldMasks
import Headlines.Soundness.FollowEdges
import Headlines.Soundness.HeaderParsing
import Headlines.Soundness.KeyResolution
import Headlines.Soundness.Lockout
import Headlines.Soundness.MarkdownContent
import Headlines.Soundness.NodeCodec
import Headlines.Soundness.NonceContract
import Headlines.Soundness.OneDecision
import Headlines.Soundness.Pagination
import Headlines.Soundness.ReadSurfaces
import Headlines.Soundness.RedactionFinality
import Headlines.Soundness.RedactionLeak
import Headlines.Soundness.Registration
import Headlines.Soundness.ReplayWindow
import Headlines.Soundness.RestContent
import Headlines.Soundness.ScopeAuthorization
import Headlines.Soundness.Served
import Headlines.Soundness.SignedMessage
import Headlines.Soundness.StorageValidation
import Headlines.Soundness.StreamDelivery
import Headlines.Soundness.SubjectHandover
import Headlines.Soundness.TableFamily
import Headlines.Soundness.Tombstoning
import Headlines.Soundness.TsoRestarts
import Headlines.Soundness.TsoThreads
import Headlines.Soundness.WireScanning
import Headlines.Sql.Numbered
import Headlines.Store.AccountStream
import Headlines.Store.Accounts
import Headlines.Store.Articles
import Headlines.Store.Database
import Headlines.Store.Db
import Headlines.Store.Drafts
import Headlines.Store.EventQuery
import Headlines.Store.EventRepo
import Headlines.Store.FeedRecommendation
import Headlines.Store.Follows
import Headlines.Store.KeyRepo
import Headlines.Store.Keys
import Headlines.Store.Lists
import Headlines.Store.Owner
import Headlines.Store.Paging
import Headlines.Store.Registry
import Headlines.Store.Schema
import Headlines.Store.Summaries
import Headlines.ToMathlib.Except
import Headlines.ToMathlib.Forall2
import Headlines.ToMathlib.SaturatingUInt
import Headlines.ToMathlib.StableSort
