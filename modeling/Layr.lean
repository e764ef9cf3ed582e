import Layr.Graphql.Conditions
import Layr.Graphql.CompilerNames
import Layr.Graphql.StringLiterals
import Layr.Graphql.ParserRoundTrip
import Layr.Cache.GraphqlFreshness
import Layr.Rest.RowLimits
import Layr.Rest.Results
import Layr.Cache.ListKeys
import Layr.Kv.Isolation
import Layr.Kv.DriverEquivalence
import Layr.Tasks.QueueSafety
import Layr.Tasks.QueueRecovery
import Layr.Tasks.PollerSafety
import Layr.FileStorage.ReadAtomicity
import Layr.FileStorage.Multipart
import Layr.Core.RootSafety
import Layr.Image.PathRoundTrip
import Layr.Image.CacheAccess
import Layr.Cache.GraphqlKeys
import Layr.Core.MigrationContract
import Layr.Auth.ClientCredentials
import Layr.Function.ScopeChecker
import Layr.Function.BundleContract
import Layr.Auth.AccountTakeover
import Layr.Auth.SecondFactors
import Layr.Auth.Locks
import Layr.Auth.Revocation
import Layr.Rest.TableExclusion
import Layr.Cache.ListReads
import Layr.Cache.GraphqlDependencies
import Layr.Data.Claims
import Layr.Tasks.JobDeletion
import Layr.FileStorage.PayloadIntegrity
import Layr.FileStorage.RangeRequests
import Layr.FileStorage.Presigning
import Layr.Tasks.CronFields
import Layr.Tasks.PollerProgress
import Layr.Tasks.SchedulingEvents
import Layr.Tasks.Backoff
import Layr.Auth.PasskeyAssertions
import Layr.Auth.CodeAttempts
import Layr.Auth.SupersededCodes
import Layr.Auth.PasswordGuesses
import Layr.Auth.OAuthStates
import Layr.Auth.Totp
import Layr.Core.ScopeLattice
