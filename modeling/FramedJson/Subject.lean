namespace FramedJson

inductive MessageField
  | key
  | value
  deriving DecidableEq

def MessageField.name : MessageField → String
  | .key => "key"
  | .value => "value"

@[ext] structure Context where
  stream : String
  field : MessageField
  deriving DecidableEq

inductive SubjectNaming
  | byTopic
  | byTopicAndRecord
  | byRecord
  | custom (rule : Context → String → String)

namespace SubjectNaming

def subject : SubjectNaming → Context → String → String
  | .byTopic, context, _ => context.stream ++ "-" ++ context.field.name
  | .byTopicAndRecord, context, record => context.stream ++ "-" ++ record
  | .byRecord, _, record => record
  | .custom rule, context, record => rule context record

def ofName? (name : String) : Option SubjectNaming :=
  if name ∈ ["topic_name", "TopicNameStrategy", "topic_subject_name_strategy"] then
    some .byTopic
  else if name ∈ ["topic_record_name", "TopicRecordNameStrategy",
      "topic_record_subject_name_strategy"] then
    some .byTopicAndRecord
  else if name ∈ ["record_name", "RecordNameStrategy", "record_subject_name_strategy"] then
    some .byRecord
  else none

def label : SubjectNaming → String
  | .byTopic => "TopicName"
  | .byTopicAndRecord => "TopicRecordName"
  | .byRecord => "RecordName"
  | .custom _ => "Custom(<fn>)"

end SubjectNaming
end FramedJson
