import SharedTsLibs.BackgroundJobs.Spy
import SharedTsLibs.Lib.JsText
import SharedTsLibs.Lib.JsValue
import SharedTsLibs.BackgroundJobs.JobOptions
import SharedTsLibs.BackgroundJobs.FlowJobs
import SharedTsLibs.BackgroundJobs.FlowManager
import SharedTsLibs.BackgroundJobs.FlowProducers
import SharedTsLibs.BackgroundJobs.FlowHandover
import SharedTsLibs.BackgroundJobs.QueueManager
import SharedTsLibs.BackgroundJobs.QueueStart
import SharedTsLibs.BackgroundJobs.Processor
import SharedTsLibs.BackgroundJobs.ProcessorOwnership
import SharedTsLibs.BackgroundJobs.FailureHook
import SharedTsLibs.Lib.Lines
import SharedTsLibs.FrontendHttpClient.SseUtils
import SharedTsLibs.Lib.TextDecoder
import SharedTsLibs.FrontendHttpClient.EventStream
import SharedTsLibs.FrontendHttpClient.SseGrammar
import SharedTsLibs.ODataMapper.Filter
import SharedTsLibs.ODataMapper.FilterTransformer
import SharedTsLibs.ODataMapper.FilterLanguage
import SharedTsLibs.ODataMapper.FilterMeaning
import SharedTsLibs.ODataMapper.FilterExtractor
import SharedTsLibs.ODataMapper.FilterFields
import SharedTsLibs.Lib.PlainObject
import SharedTsLibs.Lib.JsRuntime
import SharedTsLibs.Lib.Precedence
import SharedTsLibs.ApiContracts.ContractResponse
import SharedTsLibs.FastifyApiContracts.SseUtils
import SharedTsLibs.FastifyApiContracts.BuildFastifyApiRoute
import SharedTsLibs.FastifyApiContracts.SseSelection
import SharedTsLibs.FastifyApiContracts.ResponseAgreement
import SharedTsLibs.Lib.Paging
import SharedTsLibs.ApiCommon.PaginationUtils
import SharedTsLibs.ApiCommon.PaginationTraversal
import SharedTsLibs.Lib.SqlText
import SharedTsLibs.DrizzleUtils.MarkMigrationsApplied
import SharedTsLibs.DrizzleUtils.BaselineRuns
import SharedTsLibs.DrizzleUtils.BaselineInterleavings
import SharedTsLibs.DrizzleUtils.BaselineSequence
import SharedTsLibs.Lib.Utf16
import SharedTsLibs.Lib.JsonValue
import SharedTsLibs.DrizzleUtils.DiffSchemaSnapshots
import SharedTsLibs.Lib.JsDatum
import SharedTsLibs.Lib.UpdateFrom
import SharedTsLibs.PrismaUtils.PrismaBulkUpdate
import SharedTsLibs.PrismaUtils.BulkUpdateMeaning
import SharedTsLibs.PrismaUtils.BulkUpdateRefinement
import SharedTsLibs.DrizzleUtils.DrizzleFullBulkUpdate
import SharedTsLibs.DrizzleUtils.BulkUpdateAlignment
import SharedTsLibs.Lib.JsArithmetic
import SharedTsLibs.PrismaUtils.PrismaTransaction
import SharedTsLibs.BackendHttpClient.Retry
import SharedTsLibs.BackendHttpClient.RetryDiscipline
import SharedTsLibs.BackendHttpClient.RetryAbort
import SharedTsLibs.Polling.ExponentialBackoffStrategy
import SharedTsLibs.Polling.PollingRuns
import SharedTsLibs.DrizzleUtils.SqlLiterals
import SharedTsLibs.Lib.Base64
import SharedTsLibs.Lib.CodeUnits
import SharedTsLibs.Lib.JsonText
import SharedTsLibs.ApiCommon.CursorCodec
import SharedTsLibs.Lib.Misread
import SharedTsLibs.Lib.RegExp
import SharedTsLibs.NonTranslatableMarkup.Methods
import SharedTsLibs.NonTranslatableMarkup.TaggedText
import SharedTsLibs.NonTranslatableMarkup.ContentEdits
import SharedTsLibs.MetricsUtils.TransactionRuns
import SharedTsLibs.ODataMapper.RangeExtraction
import SharedTsLibs.ODataMapper.FilterViews
import SharedTsLibs.ODataMapper.FieldValues
import SharedTsLibs.ODataMapper.NecessaryConstraints
import SharedTsLibs.DrizzleUtils.DifferencePaths
import SharedTsLibs.Lib.Grouping
import SharedTsLibs.DrizzleUtils.SnapshotSchema
import SharedTsLibs.DrizzleUtils.MysqlKeys
import SharedTsLibs.DrizzleUtils.MysqlKeysKept
import SharedTsLibs.DrizzleUtils.PostgresSnapshot
import SharedTsLibs.DrizzleUtils.PostgresColumns
import SharedTsLibs.DrizzleUtils.PostgresForeignKeys
import SharedTsLibs.DrizzleUtils.PostgresIndexes
import SharedTsLibs.Polling.BackoffDelays
import SharedTsLibs.ApiCommon.PageLimits
import SharedTsLibs.Lib.HttpDate
import SharedTsLibs.BackendHttpClient.RetryAfterGrammar
import SharedTsLibs.Lib.Delimiters
import SharedTsLibs.NonTranslatableMarkup.MarkupLeaks
import SharedTsLibs.TextMeasure.CountCharacters
import SharedTsLibs.UniversalTsUtils.TrimText
import SharedTsLibs.UniversalTsUtils.AreDeepEqual
import SharedTsLibs.UniversalTsUtils.GroupBy
import SharedTsLibs.UniversalTsUtils.GroupByPath
import SharedTsLibs.UniversalTsUtils.WaitAndRetry
import SharedTsLibs.UniversalTsUtils.TransformToKebabCase
import SharedTsLibs.AwsConfig.NameValidation
import SharedTsLibs.WebsocketsCommon.Rooms
import SharedTsLibs.Lib.Chunks
import SharedTsLibs.Lib.Loops
import SharedTsLibs.Lib.JsArrays
import SharedTsLibs.UniversalTsUtils.ChunkedProcessing
import SharedTsLibs.BackgroundJobs.PeriodicJob
import SharedTsLibs.BackgroundJobs.PeriodicJobRuns
import SharedTsLibs.BackgroundJobs.JobAttempts
import SharedTsLibs.FrontendHttpClient.SseConnection
import SharedTsLibs.FrontendHttpClient.SseConnectionRuns
import SharedTsLibs.UniversalTestingUtils.SseResponse
import SharedTsLibs.AwsConfig.ResourceLimits
import SharedTsLibs.BackendHttpClient.SendAccounts
import SharedTsLibs.FastifyApiContracts.SseDelivery
import SharedTsLibs.BackgroundJobs.ThrottlingBarrier
import SharedTsLibs.FastifyBullboardPlugin.BoardLifetimes
import SharedTsLibs.MetricsUtils.DimensionalManager
import SharedTsLibs.UniversalTsUtils.PromiseWithTimeout
