import SharedTsLibs.AwsConfig.ResourceNames

/-!
# What holds of the resources

* `resolved_names_fit` — the names of the queues are within the limits of AWS, those of the
  topics but for one combination of lengths.
* `publisher_agrees` — the publishers and consumers of a topic agree on it.
* `own_queue_covered_iff` — which queues of a project may subscribe to its topics.
* `returned_valid_iff` — when every configuration that `getAwsConfig` returns has passed the
  check.
-/

namespace SharedTsLibs.AwsConfig

open UniversalTsUtils

/-! ## Lengths -/

theorem units_append (s t : String) : units (s ++ t) = units s ++ units t := by
  rw [units, String.toList_append, JsString.ofChars_append]
  rfl

theorem jsLength_append (s t : String) : jsLength (s ++ t) = jsLength s + jsLength t := by
  rw [jsLength, units_append, List.length_append]
  rfl

theorem jsLength_dlqSuffix : jsLength DLQ_SUFFIX = 4 := by decide

/-- A prefixed name. -/
theorem units_applyAwsResourcePrefix (name : String) (awsConfig : AwsConfig) :
    units (applyAwsResourcePrefix name awsConfig)
      = (if awsConfig.resourcePrefix = "" then [] else units awsConfig.resourcePrefix ++ units "_")
        ++ units name := by
  rw [applyAwsResourcePrefix]
  split
  · rfl
  · rw [units_append, units_append]

theorem jsLength_applyAwsResourcePrefix (name : String) (awsConfig : AwsConfig) :
    jsLength (applyAwsResourcePrefix name awsConfig)
      = (if awsConfig.resourcePrefix = "" then 0 else jsLength awsConfig.resourcePrefix + 1)
        + jsLength name := by
  rw [jsLength, units_applyAwsResourcePrefix, List.length_append]
  split
  · rfl
  · rw [List.length_append]
    rfl

theorem applyAwsResourcePrefix?_some (name : String) (awsConfig : AwsConfig) :
    applyAwsResourcePrefix? (some name) awsConfig
      = some (applyAwsResourcePrefix name awsConfig) := by
  unfold applyAwsResourcePrefix? applyAwsResourcePrefix
  split
  · rfl
  · rfl

theorem validateAwsConfig_eq_ok {config : AwsConfig} :
    validateAwsConfig config = .ok () ↔ jsLength config.resourcePrefix ≤ 10 := by
  rw [validateAwsConfig, MAX_AWS_RESOURCE_PREFIX_LENGTH]
  split
  · rename_i h
    exact iff_of_false (fun hok => by cases hok) (Nat.not_le.2 h)
  · rename_i h
    exact iff_of_true rfl (Nat.not_lt.1 h)

/-! ## What was checked -/

section Checked

variable {rt : JsRuntime} {runtime : RegExpRuntime}

/-- A name that was accepted is within the limit of its kind. -/
theorem length_of_validateName {kind : NameKind} {project name : JsString} {isExternal : Bool}
    (h : validateName runtime kind project name isExternal = .ok ()) :
    name.length ≤ kind.maxLength := by
  rw [validateName] at h
  split at h
  · cases h
  · rename_i hlength
    exact Nat.not_lt.1 hlength

/-- In a list that was accepted every topic was, and every queue of it. -/
theorem validateTopicsConfig_eq_ok {topics : List TopicConfig} {project : JsString}
    (h : validateTopicsConfig runtime topics project = .ok ()) :
    ∀ topic ∈ topics,
      validateName runtime .topic project topic.topicName topic.isExternal = .ok () ∧
      ∀ queue ∈ topic.queues.map Prod.snd,
        validateName runtime .queue project queue.queueName queue.isExternal = .ok () := by
  have hall := (Fallible.ReturnsIff.forM (E := fun _ => True) fun topic (_ : topic ∈ topics) =>
    ⟨Iff.rfl, fun _ _ => trivial⟩).1.1 h
  intro topic htopic
  obtain ⟨u, hname, hqueues⟩ := Fallible.bind_eq_ok.1 (hall topic htopic)
  have hqueue := (Fallible.ReturnsIff.forM (E := fun _ => True)
    fun queue (_ : queue ∈ topic.queues.map Prod.snd) => ⟨Iff.rfl, fun _ _ => trivial⟩).1.1 hqueues
  exact ⟨hname, hqueue⟩

/-- The resolver keeps topics of its routing, each with its queues under their names. -/
theorem construct_eq_ok {routingConfig : List (String × TopicEntry)} {config : ResolverConfig}
    {resolver : SnsResolver}
    (h : SnsResolver.construct rt runtime routingConfig config = .ok resolver) :
    resolver.config = config ∧
      (config.validateNamePatterns = true → validateTopicsConfig runtime
        ((routingConfig.map Prod.snd).map TopicEntry.config) (units config.project) = .ok ()) ∧
      ∀ key routed, OrderedMap.get? resolver.routingConfig key = some routed →
        routed.topic ∈ routingConfig.map Prod.snd ∧
        itemKey rt RoutedTopic.property (.str "topicName") routed = some key ∧
        groupByUnique rt QueueEntry.property (routed.topic.queues.map Prod.snd) (.str "queueName")
          = .ok routed.queues := by
  obtain ⟨u, hvalidate, hrest⟩ := Fallible.bind_eq_ok.1 h
  obtain ⟨topics, htopics, hrest⟩ := Fallible.bind_eq_ok.1 hrest
  obtain ⟨routing, hrouting, hreturn⟩ := Fallible.bind_eq_ok.1 hrest
  cases hreturn
  rw [routeTopics] at hrouting
  split at hrouting
  · cases hrouting
  rename_i groups hgroups
  cases hrouting
  refine ⟨rfl, fun hon => ?_, fun key topic hget => ?_⟩
  · rw [checkNames, if_pos hon] at hvalidate
    split at hvalidate
    · cases hvalidate
    · assumption
  · obtain ⟨hmem, hkey⟩ := mem_of_get?_groupByUnique rt RoutedTopic.property _ hgroups hget
    obtain ⟨entry, hentry, hroute⟩ := Fallible.exists_of_mem_mapM htopics hmem
    rw [routeTopic] at hroute
    split at hroute
    · cases hroute
    · rename_i queues hqueues
      cases hroute
      exact ⟨hentry, hkey.1, hqueues⟩

/-! ## What is resolved -/

/-- A queue that is read is one of the queues, or has the name of an inherited property. -/
theorem readQueue_eq_some {queues : Groups QueueEntry} {queueName : String} {queue : QueueMembers}
    (h : readQueue queues queueName = some queue) :
    (∃ entry, OrderedMap.get? queues (.name queueName) = some entry ∧ queue = entry.members) ∨
      queueName ∈ PlainObject.inheritedNames ∧ queue = ⟨none, false, none, none⟩ := by
  rw [readQueue, Groups.access] at h
  cases hget : OrderedMap.get? queues (.name queueName) with
  | some entry =>
    rw [hget] at h
    exact .inl ⟨entry, rfl, (Option.some.inj h).symm⟩
  | none =>
    rw [hget] at h
    by_cases hinherited : (PropertyKey.name queueName).IsInherited
    · rw [if_pos hinherited] at h
      exact .inr ⟨hinherited, (Option.some.inj h).symm⟩
    · rw [if_neg hinherited] at h
      cases h

/-- A topic that has queues is one of the topics. -/
theorem readTopic_eq_some {topics : Groups RoutedTopic} {topicName : String}
    {topic : TopicMembers} (h : readTopic topics topicName = some topic)
    (hqueues : topic.queues ≠ none) :
    ∃ entry, OrderedMap.get? topics (.name topicName) = some entry ∧ topic = entry.members := by
  rw [readTopic, Groups.access] at h
  cases hget : OrderedMap.get? topics (.name topicName) with
  | some entry =>
    rw [hget] at h
    exact ⟨entry, rfl, (Option.some.inj h).symm⟩
  | none =>
    rw [hget] at h
    by_cases hinherited : (PropertyKey.name topicName).IsInherited
    · rw [if_pos hinherited] at h
      rw [← Option.some.inj h] at hqueues
      exact absurd rfl hqueues
    · rw [if_neg hinherited] at h
      cases h

/-- The options of a consumer are made of a topic and of what is read as an internal queue of
that topic. -/
structure Resolved (resolver : SnsResolver) (topicName queueName : String)
    (params : ResolveParams) (options : ConsumerOptions) (topic : RoutedTopic)
    (queue : QueueMembers) : Prop where
  topic_eq : OrderedMap.get? resolver.routingConfig (.name topicName) = some topic
  queue_eq : readQueue topic.queues queueName = some queue
  internal : queue.isExternal = false
  topicResource : options.topic = resolver.config.resolveTopic topic.members params
  queueResource : options.queue.queue.QueueName
    = applyAwsResourcePrefix? queue.queueName params.awsConfig
  deadLetterQueue : options.deadLetterQueue
    = AwsConfig.deadLetterQueue options.queue.queue params
  subscribers : options.queueUrlsWithSubscribePermissionsPrefix
    = buildQueueUrlsWithSubscribePermissionsPrefix topic.members resolver.config.project
        params.awsConfig

theorem resolved_of_ok {resolver : SnsResolver} {topicName queueName : String}
    {params : ResolveParams} {options : ConsumerOptions}
    (h : resolver.resolveConsumerOptions topicName queueName params = .ok options) :
    ∃ topic queue, Resolved resolver topicName queueName params options topic queue := by
  obtain ⟨members, htopic, hrest⟩ := Fallible.bind_eq_ok.1 h
  obtain ⟨queues, hqueues, hrest⟩ := Fallible.bind_eq_ok.1 hrest
  obtain ⟨resolved, hqueue, hreturn⟩ := Fallible.bind_eq_ok.1 hrest
  rw [SnsResolver.queuesOf] at hqueues
  split at hqueues
  · cases hqueues
  rename_i queues' hsome
  cases hqueues
  rw [SnsResolver.getTopicConfig] at htopic
  split at htopic
  · cases htopic
  rename_i members' hread
  cases htopic
  obtain ⟨topic, htopic, rfl⟩ := readTopic_eq_some hread (by rw [hsome]; simp)
  cases hsome
  rw [ResolverConfig.resolveQueue] at hqueue
  split at hqueue
  · cases hqueue
  rename_i queue hread
  split at hqueue
  · cases hqueue
    cases hreturn
  · rename_i hinternal
    cases hqueue
    cases hreturn
    exact ⟨topic, queue, htopic, hread, by simpa using hinternal, rfl, rfl, rfl, rfl⟩

/-- A publisher and a consumer of a topic ask for the same topic, open to the same queues. -/
theorem publisher_agrees {resolver : SnsResolver} {topicName queueName : String}
    {params : ResolveParams} {publisher : PublisherOptions} {consumer : ConsumerOptions}
    (hpublisher : resolver.resolvePublisherOptions topicName params = .ok publisher)
    (hconsumer : resolver.resolveConsumerOptions topicName queueName params = .ok consumer) :
    publisher.topic = consumer.topic ∧
      publisher.queueUrlsWithSubscribePermissionsPrefix
        = consumer.queueUrlsWithSubscribePermissionsPrefix := by
  obtain ⟨topic, queue, h⟩ := resolved_of_ok hconsumer
  obtain ⟨members, htopic, hreturn⟩ := Fallible.bind_eq_ok.1 hpublisher
  have hread : readTopic resolver.routingConfig topicName = some topic.members := by
    rw [readTopic, Groups.access, h.topic_eq]
  rw [SnsResolver.getTopicConfig, hread] at htopic
  cases htopic
  cases hreturn
  exact ⟨h.topicResource.symm, h.subscribers.symm⟩

theorem name_resolveTopic (config : ResolverConfig) (topic : TopicMembers)
    (params : ResolveParams) : (config.resolveTopic topic params).name
      = applyAwsResourcePrefix? topic.topicName params.awsConfig := by
  rw [ResolverConfig.resolveTopic]
  split <;> rfl

/-- An entry is found under its own name. -/
theorem topicName_of_itemKey {topic : RoutedTopic} {topicName : String}
    (h : itemKey rt RoutedTopic.property (.str "topicName") topic = some (.name topicName)) :
    topic.topic.topicName = topicName := by
  rw [itemKey, RoutedTopic.property, if_pos rfl] at h
  cases h
  rfl

theorem queueName_of_itemKey {queue : QueueEntry} {queueName : String}
    (h : itemKey rt QueueEntry.property (.str "queueName") queue = some (.name queueName)) :
    queue.queueName = queueName := by
  rw [itemKey, QueueEntry.property, if_pos rfl] at h
  cases h
  rfl

/-- Where the names are checked, the topic has been accepted, and the queue as well unless its
name is that of an inherited property. -/
theorem accepted_of_resolved {routingConfig : List (String × TopicEntry)} {config : ResolverConfig}
    (hvalidate : config.validateNamePatterns = true) {resolver : SnsResolver}
    (hconstruct : SnsResolver.construct rt runtime routingConfig config = .ok resolver)
    {topicName queueName : String} {params : ResolveParams} {options : ConsumerOptions}
    {topic : RoutedTopic} {queue : QueueMembers}
    (h : Resolved resolver topicName queueName params options topic queue) :
    (topic.topic.topicName = topicName ∧
      validateName runtime .topic (units config.project) (units topicName)
        topic.topic.ownership.isExternal = .ok ()) ∧
      (queueName ∉ PlainObject.inheritedNames ∧ queue.queueName = some queueName ∧
          validateName runtime .queue (units config.project) (units queueName) false = .ok () ∨
        queueName ∈ PlainObject.inheritedNames ∧ queue.queueName = none) := by
  obtain ⟨-, hnames, hentries⟩ := construct_eq_ok hconstruct
  obtain ⟨htopic, htopicKey, hgroup⟩ := hentries _ _ h.topic_eq
  have htopicName := topicName_of_itemKey htopicKey
  obtain ⟨htopicOk, hqueuesOk⟩ := validateTopicsConfig_eq_ok (hnames hvalidate) _
    (List.mem_map_of_mem htopic)
  refine ⟨⟨htopicName, ?_⟩, ?_⟩
  · rw [← htopicName]
    exact htopicOk
  obtain ⟨entry, hget, rfl⟩ | ⟨hinherited, rfl⟩ := readQueue_eq_some h.queue_eq
  · obtain ⟨hqueue, hqueueKey, hown⟩ :=
      mem_of_get?_groupByUnique rt QueueEntry.property _ hgroup hget
    have hqueueName := queueName_of_itemKey hqueueKey
    have hqueueOk := hqueuesOk entry.config (by
      rw [TopicEntry.config, List.map_map]
      obtain ⟨keyed, hkeyed, rfl⟩ := List.mem_map.1 hqueue
      exact List.mem_map.2 ⟨keyed, hkeyed, rfl⟩)
    have hinternal : entry.ownership.isExternal = false := h.internal
    refine .inl ⟨hown, congrArg some hqueueName, ?_⟩
    rw [← hqueueName, ← hinternal]
    exact hqueueOk
  · exact .inr ⟨hinherited, rfl⟩

/-- A prefixed name is at most eleven units longer, and a name that is `undefined` short. -/
theorem jsLength_prefixed {awsConfig : AwsConfig} (hconfig : validateAwsConfig awsConfig = .ok ())
    {resourceName : Option String} {limit : ℕ} (hlimit : 9 ≤ limit)
    (hname : ∀ name ∈ resourceName, jsLength name ≤ limit) :
    jsLength (templateText (applyAwsResourcePrefix? resourceName awsConfig)) ≤ limit + 11 := by
  have hprefixLength := validateAwsConfig_eq_ok.1 hconfig
  have htext : jsLength (templateText resourceName) ≤ limit := by
    cases resourceName with
    | none => exact hlimit
    | some name => exact hname name rfl
  unfold applyAwsResourcePrefix?
  split
  · omega
  · show jsLength (applyAwsResourcePrefix (templateText resourceName) awsConfig) ≤ _
    rw [jsLength_applyAwsResourcePrefix]
    split <;> omega

/-- **The names fit**, but for an off-by-one: a resolver that checks its names gives queues and
dead letter queues within the 80 characters of AWS, for every configuration that was checked;
the name of a topic is longer than the 256 characters of AWS exactly when the prefix and the
topic both have the greatest length that is accepted, as nothing is left for the underscore.
Only what an inherited property is found for can be without a name. -/
theorem resolved_names_fit {routingConfig : List (String × TopicEntry)} {config : ResolverConfig}
    (hvalidate : config.validateNamePatterns = true) {resolver : SnsResolver}
    (hconstruct : SnsResolver.construct rt runtime routingConfig config = .ok resolver)
    {topicName queueName : String} {params : ResolveParams}
    (hconfig : validateAwsConfig params.awsConfig = .ok ()) {options : ConsumerOptions}
    (hoptions : resolver.resolveConsumerOptions topicName queueName params = .ok options) :
    (options.queue.queue.QueueName = none → queueName ∈ PlainObject.inheritedNames) ∧
      (∀ name ∈ options.queue.queue.QueueName, jsLength name ≤ 80) ∧
      (∀ queue ∈ options.deadLetterQueue, ∃ name, queue.queue.QueueName = some name ∧
        jsLength name ≤ 80) ∧
      ∃ name, options.topic.name = some name ∧
        (256 < jsLength name ↔
          jsLength params.awsConfig.resourcePrefix = 10 ∧ jsLength topicName = 246) := by
  obtain ⟨topic, queue, h⟩ := resolved_of_ok hoptions
  obtain ⟨⟨htopicName, htopicOk⟩, hqueue⟩ := accepted_of_resolved hvalidate hconstruct h
  have htopicLength : jsLength topicName ≤ 246 := length_of_validateName htopicOk
  have hprefixLength := validateAwsConfig_eq_ok.1 hconfig
  have hqueueLength : ∀ name ∈ queue.queueName, jsLength name ≤ 64 := by
    obtain ⟨-, hname, hqueueOk⟩ | ⟨-, hname⟩ := hqueue
    · rw [hname]
      rintro name ⟨⟩
      exact length_of_validateName hqueueOk
    · rw [hname]
      rintro name ⟨⟩
  have hqueueName : jsLength (templateText options.queue.queue.QueueName) ≤ 75 := by
    rw [h.queueResource]
    exact jsLength_prefixed hconfig (by decide) hqueueLength
  refine ⟨fun hnone => ?_, fun name hname => ?_, fun dlq hdlq => ?_, ?_⟩
  · obtain ⟨-, hname, -⟩ | ⟨hinherited, -⟩ := hqueue
    · rw [h.queueResource, hname, applyAwsResourcePrefix?_some] at hnone
      cases hnone
    · exact hinherited
  · rw [show options.queue.queue.QueueName = some name from hname] at hqueueName
    exact Nat.le_trans hqueueName (by decide)
  · rw [h.deadLetterQueue, deadLetterQueue] at hdlq
    split at hdlq
    · cases hdlq
    · cases hdlq
      refine ⟨_, rfl, ?_⟩
      rw [jsLength_append, jsLength_dlqSuffix]
      omega
  · refine ⟨applyAwsResourcePrefix topicName params.awsConfig, ?_, ?_⟩
    · rw [h.topicResource, name_resolveTopic, ← htopicName]
      exact applyAwsResourcePrefix?_some ..
    · rw [jsLength_applyAwsResourcePrefix]
      split
      · rename_i hstart
        have hzero : jsLength params.awsConfig.resourcePrefix = 0 := by
          rw [hstart]
          rfl
        omega
      · omega

/-! ## Who may subscribe -/

theorem plain_of_ordinary {s : JsString} (h : ∀ u ∈ s, u ∉ syntaxCharacters) :
    Wildcard.Plain star mark s := by
  intro u hu
  refine ⟨?_, ?_⟩
  · rintro rfl
    exact h _ hu (by decide)
  · rintro rfl
    exact h _ hu (by decide)

theorem not_endsWith_star {value : String} (h : Wildcard.Plain star mark (units value)) :
    endsWith value star = false := by
  refine decide_eq_false fun hlast => ?_
  exact (h star (List.mem_of_getLast? hlast)).1 rfl

theorem ensureWildcard_ensureWildcard (value : String) :
    ensureWildcard (ensureWildcard value) = ensureWildcard value := by
  by_cases h : endsWith value star = true
  · simp [ensureWildcard, h]
  · have hstar : endsWith (value ++ "*") star = true := by
      refine decide_eq_true ?_
      rw [units_append, List.getLast?_append_of_ne_nil _ (by decide)]
      rfl
    simp [ensureWildcard, h, hstar]

/-- The wildcard of an application without wildcards of its own. -/
theorem units_queueWildcard {value : String} (h : Wildcard.Plain star mark (units value)) :
    units (ensureWildcard (queueWildcard value))
      = units value ++ (if endsWith value hyphen then [] else [hyphen]) ++ [star] := by
  have hplain : ∀ t : String, Wildcard.Plain star mark (units t) →
      units (ensureWildcard t) = units t ++ [star] := by
    intro t ht
    rw [ensureWildcard, not_endsWith_star ht, if_neg (by decide), units_append]
    rfl
  rw [queueWildcard, not_endsWith_star h, if_neg (by decide), ensureWildcard_ensureWildcard]
  split
  · rw [hplain value h, List.append_nil]
  · have hhyphen : Wildcard.Plain star mark (units "-") := by
      intro u hu
      rw [show units "-" = [hyphen] from rfl, List.mem_singleton] at hu
      rw [hu]
      exact ⟨by decide, by decide⟩
    have hvalue : Wildcard.Plain star mark (units (value ++ "-")) := by
      rw [units_append]
      exact h.append hhyphen
    rw [hplain _ hvalue, units_append]
    rfl

/-- The prefix does not change what a name ends with. -/
theorem endsWith_applyAwsResourcePrefix (name : String) (awsConfig : AwsConfig) :
    endsWith (applyAwsResourcePrefix name awsConfig) hyphen = endsWith name hyphen := by
  rw [endsWith, endsWith, units_applyAwsResourcePrefix]
  by_cases hname : units name = []
  · rw [hname, List.append_nil]
    split
    · rfl
    · rw [List.getLast?_append_of_ne_nil _ (by decide)]
      rfl
  · rw [List.getLast?_append_of_ne_nil _ hname]

/-- The wildcard of the project itself covers what the project's name begins, with a hyphen
behind it. -/
theorem matches_ownWildcard_iff {project name : String} {awsConfig : AwsConfig}
    (hproject : ∀ u ∈ units project, u ∉ syntaxCharacters)
    (hstart : Wildcard.Plain star mark (units awsConfig.resourcePrefix)) :
    Wildcard.Matches star mark
        (units (ensureWildcard (queueWildcard (applyAwsResourcePrefix project awsConfig))))
        (units (applyAwsResourcePrefix name awsConfig)) ↔
      units project ++ (if endsWith project hyphen then [] else [hyphen]) <+: units name := by
  have hunderscore : Wildcard.Plain star mark (units "_") := by
    intro v hv
    rw [show units "_" = [underscore] from rfl, List.mem_singleton] at hv
    rw [hv]
    exact ⟨by decide, by decide⟩
  have hstem : Wildcard.Plain star mark (units (applyAwsResourcePrefix project awsConfig)) := by
    rw [units_applyAwsResourcePrefix]
    refine Wildcard.Plain.append ?_ (plain_of_ordinary hproject)
    split
    · exact fun v hv => by cases hv
    · exact hstart.append hunderscore
  have hend : Wildcard.Plain star mark
      (if endsWith (applyAwsResourcePrefix project awsConfig) hyphen then [] else [hyphen]) := by
    split
    · exact fun v hv => by cases hv
    · intro v hv
      rw [List.mem_singleton.1 hv]
      exact ⟨by decide, by decide⟩
  rw [units_queueWildcard hstem, Wildcard.matches_prefix_iff (hstem.append hend),
    endsWith_applyAwsResourcePrefix, units_applyAwsResourcePrefix, units_applyAwsResourcePrefix,
    List.append_assoc, List.prefix_append_right_inj]

/-- The name that a template makes of `undefined` has no hyphen. -/
theorem not_prefix_undefined (project : String) :
    ¬ units project ++ (if endsWith project hyphen then [] else [hyphen])
      <+: units (templateText none) := by
  intro hcovered
  have hhyphen : hyphen ∈ units project ++ (if endsWith project hyphen then [] else [hyphen]) := by
    by_cases hend : endsWith project hyphen = true
    · exact List.mem_append_left _ (List.mem_of_getLast? (of_decide_eq_true hend))
    · rw [if_neg hend]
      exact List.mem_append_right _ (List.mem_singleton_self _)
  exact absurd (hcovered.subset hhyphen) (by decide)

/-- **Who may subscribe.**  The first wildcard of an internal topic is the one of the project
itself.  For a project of ordinary characters and a prefix without wildcards it covers a queue
that the resolver accepts unless the queue has the older name, with an underscore behind the
project: the checks allow such a queue, and the policy of the topic leaves it out.  What is
resolved for the name of an inherited property is not covered. -/
theorem own_queue_covered_iff {routingConfig : List (String × TopicEntry)}
    {config : ResolverConfig} (hvalidate : config.validateNamePatterns = true)
    (hproject : ∀ u ∈ units config.project, u ∉ syntaxCharacters) {resolver : SnsResolver}
    (hconstruct : SnsResolver.construct rt runtime routingConfig config = .ok resolver)
    {topicName queueName : String} {params : ResolveParams}
    (hstart : Wildcard.Plain star mark (units params.awsConfig.resourcePrefix))
    {options : ConsumerOptions}
    (hoptions : resolver.resolveConsumerOptions topicName queueName params = .ok options)
    {wildcards : List String}
    (hwildcards : options.queueUrlsWithSubscribePermissionsPrefix = some wildcards) :
    ∃ own others, wildcards = own :: others ∧
      ((∃ name ∈ options.queue.queue.QueueName,
          Wildcard.Matches star mark (units own) (units name)) ↔
        queueName ∉ PlainObject.inheritedNames ∧
          (endsWith config.project hyphen = true ∨
            ¬ ∃ rest, units queueName = units config.project ++ underscore :: rest)) := by
  obtain ⟨topic, queue, h⟩ := resolved_of_ok hoptions
  obtain ⟨-, hqueue⟩ := accepted_of_resolved hvalidate hconstruct h
  rw [h.subscribers, buildQueueUrlsWithSubscribePermissionsPrefix] at hwildcards
  split at hwildcards
  · cases hwildcards
  cases hwildcards
  refine ⟨_, _, rfl, ?_⟩
  rw [(construct_eq_ok hconstruct).1, h.queueResource]
  obtain ⟨hown, hname, hqueueOk⟩ | ⟨hinherited, hname⟩ := hqueue
  · obtain ⟨-, hexternal | ⟨rest, hunits, u, suffix, rfl, hu, -⟩⟩ :=
      (validateName_returnsIff (readsAsText_of_plain hproject) .queue _ _).1.1 hqueueOk
    · cases hexternal
    have hrest : (∃ rest, units config.project ++ u :: suffix
        = units config.project ++ underscore :: rest) ↔ u = underscore := by
      constructor
      · rintro ⟨rest, heq⟩
        exact (List.cons.inj (List.append_cancel_left heq)).1
      · rintro rfl
        exact ⟨suffix, rfl⟩
    rw [hname, applyAwsResourcePrefix?_some]
    simp only [Option.mem_def, Option.some.injEq, exists_eq_left', hown, not_false_eq_true,
      true_and]
    rw [matches_ownWildcard_iff hproject hstart, hunits, hrest, List.prefix_append_right_inj]
    cases hends : endsWith config.project hyphen with
    | true => simp
    | false =>
      obtain rfl | rfl := hu
      · simp [hyphen, underscore]
      · simp [hyphen, underscore]
  · refine iff_of_false ?_ fun hnot => hnot.1 hinherited
    rintro ⟨name, hprefixed, hmatches⟩
    rw [hname, applyAwsResourcePrefix?] at hprefixed
    split at hprefixed
    · cases hprefixed
    · cases hprefixed
      exact not_prefix_undefined _ ((matches_ownWildcard_iff hproject hstart).1 hmatches)

end Checked

/-! ## A project with an older queue -/

/-- A topic with one queue, which has an underscore behind the project. -/
def olderRouting : List (String × TopicEntry) :=
  [("flow", {
    topicName := "app-flow"
    ownership := .internal "team" "api"
    queues := [("flow", ⟨"app_flow", .internal "team" "api"⟩)] })]

def olderConfig : ResolverConfig :=
  { appEnv := .staging, system := "app", project := "app", validateNamePatterns := true }

def olderParams : ResolveParams := { awsConfig := { resourcePrefix := "dev" } }

/-- The resolver is made, and resolves the consumer of the queue. -/
theorem exists_olderOptions : ∃ resolver options,
    SnsResolver.construct .ascii plusRuntime olderRouting olderConfig = .ok resolver ∧
      resolver.resolveConsumerOptions "app-flow" "app_flow" olderParams = .ok options ∧
      options.queueUrlsWithSubscribePermissionsPrefix = some ["dev_app-*"] := by
  have hsome : ((SnsResolver.construct .ascii plusRuntime olderRouting olderConfig).toOption.bind
      fun resolver => (resolver.resolveConsumerOptions "app-flow" "app_flow" olderParams).toOption)
        |>.any (fun options =>
          options.queueUrlsWithSubscribePermissionsPrefix = some ["dev_app-*"]) := by
    decide +kernel
  have hok : ∀ {ε α : Type} {x : Except ε α} {a : α}, x.toOption = some a → x = .ok a := by
    intro ε α x a h
    cases x <;> cases h
    rfl
  obtain ⟨options, hoptions, hwildcards⟩ := (Option.any_eq_true _ _).1 hsome
  obtain ⟨resolver, hresolver, hresolved⟩ := Option.bind_eq_some_iff.1 hoptions
  exact ⟨resolver, options, hok hresolver, hok hresolved, of_decide_eq_true hwildcards⟩

theorem resolved_names_fit_older : ∃ resolver options,
    SnsResolver.construct .ascii plusRuntime olderRouting olderConfig = .ok resolver ∧
      resolver.resolveConsumerOptions "app-flow" "app_flow" olderParams = .ok options ∧
      ∀ name ∈ options.queue.queue.QueueName, jsLength name ≤ 80 := by
  obtain ⟨resolver, options, hresolver, hoptions, -⟩ := exists_olderOptions
  exact ⟨resolver, options, hresolver, hoptions,
    (resolved_names_fit rfl hresolver rfl hoptions).2.1⟩

/-- The topic `app-flow` does not let its own queue `app_flow` subscribe. -/
theorem own_queue_covered_iff_older : ∃ resolver options own others,
    SnsResolver.construct .ascii plusRuntime olderRouting olderConfig = .ok resolver ∧
      resolver.resolveConsumerOptions "app-flow" "app_flow" olderParams = .ok options ∧
      ["dev_app-*"] = own :: others ∧
      ¬ ∃ name ∈ options.queue.queue.QueueName,
        Wildcard.Matches star mark (units own) (units name) := by
  obtain ⟨resolver, options, hresolver, hoptions, hwildcards⟩ := exists_olderOptions
  have hplain : ∀ u ∈ units olderConfig.project, u ∉ syntaxCharacters :=
    List.forall_iff_forall_mem.1 (by decide)
  have hstart : Wildcard.Plain star mark (units olderParams.awsConfig.resourcePrefix) :=
    List.forall_iff_forall_mem.1 (by decide)
  obtain ⟨own, others, heq, hcovered⟩ :=
    own_queue_covered_iff rfl hplain hresolver hstart hoptions hwildcards
  refine ⟨resolver, options, own, others, hresolver, hoptions, heq, fun hmatches => ?_⟩
  obtain ⟨-, hends | holder⟩ := hcovered.1 hmatches
  · cases hends
  · exact holder ⟨units "flow", rfl⟩

-- The name of an inherited property is resolved too: to a queue without a name.
example : ((SnsResolver.construct .ascii plusRuntime olderRouting olderConfig).toOption.bind
    fun resolver => (resolver.resolveConsumerOptions "app-flow" "constructor" olderParams).toOption)
      |>.any (fun options => options.queue.queue.QueueName = some "dev_undefined") := by
  decide +kernel

/-! ## The cache of the configuration -/

theorem getAwsConfigs_some (config : AwsConfig)
    (generated : List (Except AwsConfigError AwsConfig)) :
    getAwsConfigs (some config) generated = generated.map fun _ => .ok config := by
  induction generated with
  | nil => rfl
  | cons first later ih =>
    rw [getAwsConfigs, List.map_cons]
    exact congrArg _ ih

/-- **What the cache gives away.**  Every configuration that the calls of `getAwsConfig` return
has passed the check exactly when the first one that was generated passes it, or no call comes
after the one that generated it: that call throws, but it has filled the cache. -/
theorem returned_valid_iff (generated : List (Except AwsConfigError AwsConfig)) :
    (∀ config, .ok config ∈ getAwsConfigs none generated → validateAwsConfig config = .ok ()) ↔
      ∀ failed config later, generated = failed ++ .ok config :: later →
        (∀ call ∈ failed, ∃ error, call = .error error) →
          validateAwsConfig config = .ok () ∨ later = [] := by
  induction generated with
  | nil =>
    refine iff_of_true (fun config hmem => by cases hmem) fun failed config later heq => ?_
    simp at heq
  | cons first generated ih =>
    cases first with
    | error error =>
      have hcalls : getAwsConfigs none (.error error :: generated)
          = .error error :: getAwsConfigs none generated := rfl
      simp only [hcalls, List.mem_cons, reduceCtorEq, false_or]
      rw [ih]
      constructor
      · intro h failed config later heq hfailed
        cases failed with
        | nil => cases heq
        | cons call failed =>
          rw [List.cons_append, List.cons.injEq] at heq
          exact h failed config later heq.2 fun c hc => hfailed c (List.mem_cons_of_mem call hc)
      · intro h failed config later heq hfailed
        refine h (.error error :: failed) config later (by rw [heq, List.cons_append]) ?_
        exact List.forall_mem_cons.2 ⟨⟨error, rfl⟩, hfailed⟩
    | ok config =>
      have hcalls : getAwsConfigs none (.ok config :: generated)
          = ((validateAwsConfig config).map fun _ => config)
            :: generated.map fun _ => .ok config := by
        rw [getAwsConfigs, ← getAwsConfigs_some]
        rfl
      rw [hcalls]
      constructor
      · intro h failed config' later heq hfailed
        cases failed with
        | cons call failed =>
          rw [List.cons_append, List.cons.injEq] at heq
          obtain ⟨error, herror⟩ := hfailed call List.mem_cons_self
          rw [← heq.1] at herror
          cases herror
        | nil =>
          cases heq
          by_cases hlater : generated = []
          · exact .inr hlater
          · obtain ⟨call, later, rfl⟩ := List.exists_cons_of_ne_nil hlater
            exact .inl (h config (by simp))
      · intro h returned hmem
        rw [List.mem_cons, List.mem_map] at hmem
        obtain hmem | ⟨call, hcall, heq⟩ := hmem
        · cases hcheck : validateAwsConfig config with
          | error error =>
            rw [hcheck] at hmem
            cases hmem
          | ok u =>
            rw [hcheck] at hmem
            cases hmem
            exact hcheck
        · cases heq
          obtain hvalid | hlater := h [] config generated rfl fun c hc => by cases hc
          · exact hvalid
          · rw [hlater] at hcall
            cases hcall

end SharedTsLibs.AwsConfig
