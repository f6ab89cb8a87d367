import Kaskade.PythonText
import Kaskade.UnicodeCodecs
import Kaskade.PythonValues
import Kaskade.JsonPrinting
import Kaskade.JsonParsing
import Kaskade.JsonTokens
import Kaskade.JsonRoundTrip
import Kaskade.JsonReading
import Kaskade.JsonEncoding
import Kaskade.JsonNesting
import Kaskade.ByteTexts
import Kaskade.DecimalFloats
import Kaskade.JsonSchemas
import Kaskade.Exceptions
import Kaskade.Interpreter
import Kaskade.PercentEncoding
import Kaskade.Deserializers
import Kaskade.LocalDeserializers
import Kaskade.RecordModels
import Kaskade.ConsumerRecords
import Kaskade.ConsumerRecordSchema
import Kaskade.EncodedContent
import Kaskade.EscapedTexts
import Kaskade.FieldConformance
import Kaskade.RecordConformance
import Kaskade.Serializers
import Kaskade.SerializationErrors
import Kaskade.DecodingFailures
import Kaskade.RecordCopy
import Kaskade.Runs
import Kaskade.Registrations
import Kaskade.BlockingCalls
import Kaskade.RefreshCoordination
import Kaskade.RefreshGenerations
import Kaskade.PendingRefreshes
import Kaskade.AutoRefreshes
import Kaskade.KeyedTables
import Kaskade.TopicListings
import Kaskade.DeserializerOptions
import Kaskade.Dictionaries
import Kaskade.TopicMetrics
import Kaskade.TopicGroups
import Kaskade.GroupLoading
import Kaskade.SemaphoreGathers
import Kaskade.OffsetRequests
import Kaskade.OffsetResets
import Kaskade.ResetForms
import Kaskade.MetricRuns
import Kaskade.PartitionSelections
import Kaskade.PartitionAssignment
import Kaskade.ConsumerPages
import Kaskade.ConsumerCalls
import Kaskade.ConsumerLock
import Kaskade.ProducerDelivery
import Kaskade.RecordDelivery
import Kaskade.DeliveryShutdown
import Kaskade.RegistryFraming
import Kaskade.SchemaRegistration
import Kaskade.RegistrySerializers
import Kaskade.ApicurioRequests
import Kaskade.ApicurioSessions
import Kaskade.ApicurioPaths
import Kaskade.ApicurioConfigs
import Kaskade.ConfluentSessions
import Kaskade.SettingsEntries
import Kaskade.Settings
import Kaskade.HeaderDrafts
import Kaskade.RecordProducing
import Kaskade.RecordBrowsing
import Kaskade.RecordTables
import Kaskade.ChunkSizes
import Kaskade.Varints
import Kaskade.ProtobufIndexes
import Kaskade.AvroSchemas
import Kaskade.AvroConversion
import Kaskade.AvroPassing
import Kaskade.AvroRoundTrip
import Kaskade.AvroCopies
import Kaskade.TypeReferences
import Kaskade.MessageSelection
import Kaskade.BoundedSteps
import Kaskade.ByteRoundTrips
import Kaskade.VersionSearches
import Kaskade.LruCaches
import Kaskade.TimedCaches
import Kaskade.TableColumns
import Kaskade.PropertyOptions
import Kaskade.IntegerTexts
import Kaskade.OctetEncodings
import Kaskade.PrimitiveRoundTrips
import Kaskade.TopicForms
import Kaskade.CreateForms
import Kaskade.ExclusiveWorkers
import Kaskade.TopicMutations
import Kaskade.MarkedWalks
import Kaskade.ReferencedArtifacts
import Kaskade.AvroParsing
import Kaskade.ReferencedContents
import Kaskade.DemandLoading
import Kaskade.SchemaFiles
import Kaskade.AvroDocuments
import Kaskade.SchemaReferences
import Kaskade.DependencyOrders
import Kaskade.JsonDocuments
import Kaskade.DescriptorPools
import Kaskade.TypeReferenceReads
import Kaskade.RepeatedSteps
import Kaskade.LargeBounds
import Kaskade.AvroTermination
import Kaskade.SchemaSelections
import Kaskade.SerializerOptions
import Kaskade.SerializerPools
