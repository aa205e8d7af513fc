import SharedTsLibs.AwsConfig.NameValidation
import SharedTsLibs.Lib.Wildcard
import SharedTsLibs.UniversalTsUtils.GroupBy

/-!
# Resources of topics and queues

`aws-config`: the configuration of the AWS account, and what the options resolver for topics
asks it to create.

* `AwsConfig`, `getAwsConfig` — the configuration, and the cache it is kept in.
* `ResolverConfig`, `SnsResolver` — the resolver; `SnsResolver.construct` checks and groups
  the routing.
* `TopicMembers`, `QueueMembers` — what is read off an entry; a name that every object inherits
  gives one, whose members are `undefined`.
* `resolvePublisherOptions`, `resolveConsumerOptions` — the names, tags and permissions of the
  resources.
-/

namespace SharedTsLibs.AwsConfig

open UniversalTsUtils

/-- The code units of a text. -/
def units (s : String) : JsString := JsString.ofChars s.toList

/-- `s.length` -/
def jsLength (s : String) : ℕ := (units s).length

/-! ## The account -/

set_option linter.dupNamespace false in
structure AwsConfig where
  /-- Empty, where there is none. -/
  resourcePrefix : String := ""
  kmsKeyId : String := ""
  allowedSourceOwner : Option String := none
  deriving DecidableEq

def MAX_AWS_RESOURCE_PREFIX_LENGTH : ℕ := 10

inductive AwsConfigError where
  | prefixTooLong (resourcePrefix : String)
  /-- A mandatory variable is missing. -/
  | scope (message : String)
  deriving DecidableEq

def AwsConfigError.message : AwsConfigError → String
  | .prefixTooLong resourcePrefix =>
    "AWS resource prefix exceeds maximum length of "
      ++ toString MAX_AWS_RESOURCE_PREFIX_LENGTH ++ " characters: " ++ resourcePrefix
  | .scope message => message

def validateAwsConfig (config : AwsConfig) : Except AwsConfigError Unit :=
  if MAX_AWS_RESOURCE_PREFIX_LENGTH < jsLength config.resourcePrefix then
    .error (.prefixTooLong config.resourcePrefix)
  else .ok ()

/-- `getAwsConfig(configScope)`, where `generated` is what `generateAwsConfig` makes of the
scope: the module's variable is set before the check. -/
def getAwsConfig (awsConfig : Option AwsConfig) (generated : Except AwsConfigError AwsConfig) :
    Option AwsConfig × Except AwsConfigError AwsConfig :=
  match awsConfig, generated with
  | some config, _ => (some config, .ok config)
  | none, .error error => (none, .error error)
  | none, .ok config => (some config, (validateAwsConfig config).map fun _ => config)

/-- What calls give, one after the other. -/
def getAwsConfigs : Option AwsConfig → List (Except AwsConfigError AwsConfig) →
    List (Except AwsConfigError AwsConfig)
  | _, [] => []
  | awsConfig, generated :: later =>
    (getAwsConfig awsConfig generated).2 :: getAwsConfigs (getAwsConfig awsConfig generated).1 later

/-- A text that may be `undefined`, in a template. -/
def templateText (text : Option String) : String := text.getD "undefined"

def applyAwsResourcePrefix (resourceName : String) (awsConfig : AwsConfig) : String :=
  if awsConfig.resourcePrefix = "" then resourceName
  else awsConfig.resourcePrefix ++ "_" ++ resourceName

/-- `applyAwsResourcePrefix` of a name that may be `undefined`, and without a prefix stays so. -/
def applyAwsResourcePrefix? (resourceName : Option String) (awsConfig : AwsConfig) :
    Option String :=
  if awsConfig.resourcePrefix = "" then resourceName
  else some (applyAwsResourcePrefix (templateText resourceName) awsConfig)

/-! ## Tags -/

inductive AppEnv where
  | production | development | staging
  deriving DecidableEq

def appEnvToTagEnv : AppEnv → String
  | .production => "live"
  | .development => "dev"
  | .staging => "stage"

structure ResolverConfig where
  appEnv : AppEnv
  system : String
  project : String
  validateNamePatterns : Bool := false

/-- Who has a resource: another application, or a team and service of this one. -/
inductive Ownership where
  | external
  | internal (owner service : String)
  deriving DecidableEq

def Ownership.isExternal : Ownership → Bool
  | .external => true
  | .internal _ _ => false

def Ownership.owner : Ownership → Option String
  | .external => none
  | .internal owner _ => some owner

def Ownership.service : Ownership → Option String
  | .external => none
  | .internal _ service => some service

/-- `buildResourceTags` -/
def buildResourceTags (config : ResolverConfig) (owner service : Option String)
    (awsService : String) : List (String × Option String) :=
  [("env", some (appEnvToTagEnv config.appEnv)), ("project", some config.project),
    ("service", some awsService), ("lok-owner", owner), ("lok-cost-system", some config.system),
    ("lok-cost-service", service)]

/-! ## The routing -/

structure QueueEntry where
  queueName : String
  ownership : Ownership

structure TopicEntry where
  topicName : String
  ownership : Ownership
  /-- The queues under their keys. -/
  queues : List (String × QueueEntry)
  externalAppsWithSubscribePermissions : List String := []

/-- What the checks of the names look at. -/
def QueueEntry.config (queue : QueueEntry) : QueueConfig :=
  ⟨units queue.queueName, queue.ownership.isExternal⟩

def TopicEntry.config (topic : TopicEntry) : TopicConfig :=
  ⟨units topic.topicName, topic.ownership.isExternal,
    topic.queues.map fun entry => (units entry.1, entry.2.config)⟩

/-- A topic whose queues are kept under their names. -/
structure RoutedTopic where
  topic : TopicEntry
  queues : Groups QueueEntry

/-- `queue[selector]`, for the selector that is used. -/
def QueueEntry.property (queue : QueueEntry) (selector : RecordKey) : JsDatum RecordKey :=
  if selector = .str "queueName" then .given (.str queue.queueName) else .undefined

def RoutedTopic.property (topic : RoutedTopic) (selector : RecordKey) : JsDatum RecordKey :=
  if selector = .str "topicName" then .given (.str topic.topic.topicName) else .undefined

inductive ResolverError where
  | naming (thrown : Thrown)
  | grouping (thrown : UniversalTsUtils.Thrown)
  | topicNotFound (topicName : String)
  | queueNotFound (queueName : String)
  | externalQueue (queueName : String)
  /-- A `TypeError`: the topic has no queues to look in. -/
  | typeError

/-- The message of an error that the resolver throws itself. -/
def ResolverError.message : ResolverError → Option String
  | .topicNotFound topicName => some ("Topic " ++ topicName ++ " not found")
  | .queueNotFound queueName => some ("Queue " ++ queueName ++ " not found")
  | .externalQueue queueName =>
    some ("Queue configuration for " ++ queueName ++ " should not be external")
  | .naming _ | .grouping _ | .typeError => none

structure SnsResolver where
  config : ResolverConfig
  routingConfig : Groups RoutedTopic

section Resolver

variable (rt : JsRuntime) (runtime : RegExpRuntime)

/-- The queues of a topic under their names. -/
def routeTopic (topic : TopicEntry) : Except ResolverError RoutedTopic :=
  match groupByUnique rt QueueEntry.property (topic.queues.map Prod.snd) (.str "queueName") with
  | .error thrown => .error (.grouping thrown)
  | .ok queues => .ok ⟨topic, queues⟩

/-- The check of the constructor. -/
def checkNames (topics : List TopicEntry) (config : ResolverConfig) : Except ResolverError Unit :=
  if config.validateNamePatterns then
    match validateTopicsConfig runtime (topics.map TopicEntry.config) (units config.project) with
    | .error thrown => .error (.naming thrown)
    | .ok () => .ok ()
  else .ok ()

/-- `groupByUnique(topics, 'topicName')` -/
def routeTopics (topics : List RoutedTopic) : Except ResolverError (Groups RoutedTopic) :=
  match groupByUnique rt RoutedTopic.property topics (.str "topicName") with
  | .error thrown => .error (.grouping thrown)
  | .ok routing => .ok routing

/-- `new MessageQueueToolkitSnsOptionsResolver(routingConfig, config)` -/
def SnsResolver.construct (routingConfig : List (String × TopicEntry)) (config : ResolverConfig) :
    Except ResolverError SnsResolver := do
  checkNames runtime (routingConfig.map Prod.snd) config
  let topics ← (routingConfig.map Prod.snd).mapM (routeTopic rt)
  let routing ← routeTopics rt topics
  pure ⟨config, routing⟩

end Resolver

/-! ## Reading an entry -/

structure QueueMembers where
  queueName : Option String
  isExternal : Bool
  owner : Option String
  service : Option String

def QueueEntry.members (queue : QueueEntry) : QueueMembers :=
  ⟨some queue.queueName, queue.ownership.isExternal, queue.ownership.owner,
    queue.ownership.service⟩

/-- `queueConfigs[queueName]`: an inherited property has none of the members. -/
def readQueue (queueConfigs : Groups QueueEntry) (queueName : String) : Option QueueMembers :=
  match queueConfigs.access (.name queueName) with
  | .own queue => some queue.members
  | .inherited => some ⟨none, false, none, none⟩
  | .absent => none

structure TopicMembers where
  topicName : Option String
  isExternal : Bool
  owner : Option String
  service : Option String
  queues : Option (Groups QueueEntry)
  externalAppsWithSubscribePermissions : List String

def RoutedTopic.members (topic : RoutedTopic) : TopicMembers :=
  ⟨some topic.topic.topicName, topic.topic.ownership.isExternal, topic.topic.ownership.owner,
    topic.topic.ownership.service, some topic.queues,
    topic.topic.externalAppsWithSubscribePermissions⟩

/-- `routingConfig[topicName]`, likewise. -/
def readTopic (routingConfig : Groups RoutedTopic) (topicName : String) : Option TopicMembers :=
  match routingConfig.access (.name topicName) with
  | .own topic => some topic.members
  | .inherited => some ⟨none, false, none, none, none, []⟩
  | .absent => none

/-! ## What is asked for -/

/-- What both kinds of options depend on. -/
structure ResolveParams where
  awsConfig : AwsConfig
  isTest : Bool := false
  updateAttributesIfExists : Option Bool := none
  forceTagUpdate : Option Bool := none

/-- How often, and how long, a resource of another application is looked for. -/
structure StartupResourcePolling where
  enabled : Bool
  throwOnTimeout : Bool := false
  nonBlocking : Bool := true
  pollingIntervalMs : ℕ
  /-- `NO_TIMEOUT`, where there is none. -/
  timeoutMs : Option ℕ

inductive ResolvedTopic where
  | located (topicName : Option String) (startupResourcePolling : StartupResourcePolling)
  | created (Name : Option String) (Tags : List (String × Option String)) (KmsMasterKeyId : String)

/-- The name of the topic, whoever creates it. -/
def ResolvedTopic.name : ResolvedTopic → Option String
  | .located topicName _ => topicName
  | .created Name _ _ => Name

structure QueueRequest where
  QueueName : Option String
  tags : List (String × Option String)
  KmsMasterKeyId : String

structure QueueCreation where
  queue : QueueRequest
  updateAttributesIfExists : Bool
  forceTagUpdate : Bool

inductive ResolvedQueue where
  | located (queueName : Option String) (startupResourcePolling : StartupResourcePolling)
  | created (creationConfig : QueueCreation)

structure DeadLetterQueue where
  queue : QueueRequest
  MessageRetentionPeriod : ℕ
  updateAttributesIfExists : Bool
  maxReceiveCount : ℕ

def DLQ_SUFFIX : String := "-dlq"

def DLQ_MAX_RECEIVE_COUNT : ℕ := 5

def DLQ_MESSAGE_RETENTION_PERIOD : ℕ := 7 * 24 * 60 * 60

structure PublisherOptions where
  topic : ResolvedTopic
  /-- The queues that may subscribe to a created topic, as wildcard names. -/
  queueUrlsWithSubscribePermissionsPrefix : Option (List String)

structure ConsumerOptions where
  topic : ResolvedTopic
  queue : QueueCreation
  /-- The topic that may send to the queue, as a wildcard name. -/
  topicArnsWithPublishPermissionsPrefix : Option String
  queueUrlsWithSubscribePermissionsPrefix : Option (List String)
  allowedSourceOwner : Option String
  deadLetterQueue : Option DeadLetterQueue

/-- `*` -/
def star : UInt16 := 0x2A

/-- `?` -/
def mark : UInt16 := 0x3F

/-- `value.endsWith(c)`, for one unit. -/
def endsWith (value : String) (u : UInt16) : Bool := (units value).getLast? = some u

def ensureWildcard (value : String) : String := if endsWith value star then value else value ++ "*"

/-- The name that stands in the ARN of `buildTopicArnsWithPublishPermissionsPrefix`, for a
topic that has one. -/
def buildTopicArnsWithPublishPermissionsPrefix (topic : TopicMembers) (awsConfig : AwsConfig) :
    Option String :=
  (applyAwsResourcePrefix? topic.topicName awsConfig).map ensureWildcard

/-- The wildcard of the queues of an application. -/
def queueWildcard (value : String) : String :=
  if endsWith value star then value
  else ensureWildcard (if endsWith value hyphen then value else value ++ "-")

/-- The names that stand in the ARNs of `buildQueueUrlsWithSubscribePermissionsPrefix`. -/
def buildQueueUrlsWithSubscribePermissionsPrefix (topic : TopicMembers) (project : String)
    (awsConfig : AwsConfig) : Option (List String) :=
  if topic.isExternal then none
  else some ((project :: topic.externalAppsWithSubscribePermissions).map fun value =>
    ensureWildcard (queueWildcard (applyAwsResourcePrefix value awsConfig)))

namespace ResolverConfig

variable (config : ResolverConfig)

def isDevelopmentEnvironment : Bool := config.appEnv = .development

def resolveStartupResourcePolling (isTest : Bool) : StartupResourcePolling where
  enabled := !isTest
  pollingIntervalMs := if config.isDevelopmentEnvironment then 5000 else 30000
  timeoutMs := if config.isDevelopmentEnvironment then none else some 300000

def resolveTopic (topic : TopicMembers) (params : ResolveParams) : ResolvedTopic :=
  if topic.isExternal then
    .located (applyAwsResourcePrefix? topic.topicName params.awsConfig)
      (config.resolveStartupResourcePolling params.isTest)
  else
    .created (applyAwsResourcePrefix? topic.topicName params.awsConfig)
      (buildResourceTags config topic.owner topic.service "sns") params.awsConfig.kmsKeyId

def resolveQueue (queueName : String) (queueConfigs : Groups QueueEntry)
    (params : ResolveParams) : Except ResolverError ResolvedQueue :=
  match readQueue queueConfigs queueName with
  | none => .error (.queueNotFound queueName)
  | some queue =>
    if queue.isExternal then
      .ok (.located (applyAwsResourcePrefix? queue.queueName params.awsConfig)
        (config.resolveStartupResourcePolling params.isTest))
    else
      .ok (.created {
        queue := {
          QueueName := applyAwsResourcePrefix? queue.queueName params.awsConfig
          tags := buildResourceTags config queue.owner queue.service "sqs"
          KmsMasterKeyId := params.awsConfig.kmsKeyId }
        updateAttributesIfExists := params.updateAttributesIfExists.getD true
        forceTagUpdate := params.forceTagUpdate.getD config.isDevelopmentEnvironment })

end ResolverConfig

/-- The dead letter queue of `commonConsumerOptions`. -/
def deadLetterQueue (queue : QueueRequest) (params : ResolveParams) : Option DeadLetterQueue :=
  if params.isTest then none
  else some {
    queue := { queue with
      QueueName := some (templateText queue.QueueName ++ DLQ_SUFFIX)
      KmsMasterKeyId := params.awsConfig.kmsKeyId }
    MessageRetentionPeriod := DLQ_MESSAGE_RETENTION_PERIOD
    updateAttributesIfExists := params.updateAttributesIfExists.getD true
    maxReceiveCount := DLQ_MAX_RECEIVE_COUNT }

namespace SnsResolver

variable (resolver : SnsResolver)

def getTopicConfig (topicName : String) : Except ResolverError TopicMembers :=
  match readTopic resolver.routingConfig topicName with
  | none => .error (.topicNotFound topicName)
  | some topic => .ok topic

def resolvePublisherOptions (topicName : String) (params : ResolveParams) :
    Except ResolverError PublisherOptions := do
  let topic ← resolver.getTopicConfig topicName
  pure {
    topic := resolver.config.resolveTopic topic params
    queueUrlsWithSubscribePermissionsPrefix := buildQueueUrlsWithSubscribePermissionsPrefix
      topic resolver.config.project params.awsConfig }

/-- `topicConfig.queues`, in which a queue is looked up. -/
def queuesOf (topic : TopicMembers) : Except ResolverError (Groups QueueEntry) :=
  match topic.queues with
  | none => .error .typeError
  | some queues => .ok queues

def resolveConsumerOptions (topicName queueName : String) (params : ResolveParams) :
    Except ResolverError ConsumerOptions := do
  let topic ← resolver.getTopicConfig topicName
  let queues ← queuesOf topic
  match ← resolver.config.resolveQueue queueName queues params with
  | .located _ _ => throw (.externalQueue queueName)
  | .created creation =>
    pure {
      topic := resolver.config.resolveTopic topic params
      queue := creation
      topicArnsWithPublishPermissionsPrefix :=
        buildTopicArnsWithPublishPermissionsPrefix topic params.awsConfig
      queueUrlsWithSubscribePermissionsPrefix := buildQueueUrlsWithSubscribePermissionsPrefix
        topic resolver.config.project params.awsConfig
      allowedSourceOwner := params.awsConfig.allowedSourceOwner
      deadLetterQueue := deadLetterQueue creation.queue params }

end SnsResolver

end SharedTsLibs.AwsConfig
