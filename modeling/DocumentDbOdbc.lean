import DocumentDbOdbc.Diagnostic
import DocumentDbOdbc.Configuration
import DocumentDbOdbc.ConnectionString
import DocumentDbOdbc.ConnectionStringFacts
import DocumentDbOdbc.ConnectionStringRoundTrip
import DocumentDbOdbc.DsnConfig
import DocumentDbOdbc.DsnConfigFacts
import DocumentDbOdbc.FrontEnds
import DocumentDbOdbc.Connection
import DocumentDbOdbc.ConnectionFacts
import DocumentDbOdbc.Lib.Effect
import DocumentDbOdbc.Lib.Memory
import DocumentDbOdbc.Lib.Utf8
import DocumentDbOdbc.Platform
import DocumentDbOdbc.ApplicationDataBuffer
import DocumentDbOdbc.ApplicationDataBufferFacts
import DocumentDbOdbc.ApplicationDataBufferResults
import DocumentDbOdbc.ApplicationDataBufferFaults
import DocumentDbOdbc.Column
import DocumentDbOdbc.ColumnFacts
import DocumentDbOdbc.Cursor
import DocumentDbOdbc.DataQuery
import DocumentDbOdbc.DataQueryFacts
import DocumentDbOdbc.Statement
import DocumentDbOdbc.StatementFacts
import DocumentDbOdbc.RowSlots
import DocumentDbOdbc.BlockFetch
import DocumentDbOdbc.BindOffset
import DocumentDbOdbc.TypeTraits
import DocumentDbOdbc.MetadataQuery
import DocumentDbOdbc.MetadataQueryFacts
import DocumentDbOdbc.TypeInfoQuery
import DocumentDbOdbc.TypeInfoFacts
import DocumentDbOdbc.SqlLexer
import DocumentDbOdbc.SqlParser
import DocumentDbOdbc.SqlParserFacts
import DocumentDbOdbc.SqlLexerFacts
import DocumentDbOdbc.SqlLiteral
import DocumentDbOdbc.SetStreamingGrammar
import DocumentDbOdbc.BigInteger
import DocumentDbOdbc.BigIntegerDivision
import DocumentDbOdbc.BigIntegerRun
import DocumentDbOdbc.DecimalText
import DocumentDbOdbc.DecimalTextFacts
import DocumentDbOdbc.BigIntegerAccess
import DocumentDbOdbc.BigIntegerBytes
import DocumentDbOdbc.BigIntegerPower
import DocumentDbOdbc.DigitLength
import DocumentDbOdbc.DecimalArithmetic
import DocumentDbOdbc.DecimalArithmeticFacts
import DocumentDbOdbc.DecimalInt64
import DocumentDbOdbc.DecimalWire
import DocumentDbOdbc.NumericBuffer
import DocumentDbOdbc.BufferMemory
import DocumentDbOdbc.NumeralText
import DocumentDbOdbc.GuidBuffer
import DocumentDbOdbc.IntegerColumn
import DocumentDbOdbc.IntegerBuffer
import DocumentDbOdbc.NullColumn
import DocumentDbOdbc.DateTime
import DocumentDbOdbc.DateTimeText
import DocumentDbOdbc.Indicator
import DocumentDbOdbc.StringCopy
import DocumentDbOdbc.NumberElement
import DocumentDbOdbc.HostnameAttribute
import DocumentDbOdbc.AttributeRejection
import DocumentDbOdbc.ConnectionUri
import DocumentDbOdbc.ConnectionUriFacts
import DocumentDbOdbc.BatchQuery
import DocumentDbOdbc.BatchQueryFacts
import DocumentDbOdbc.AddressGrammar
import DocumentDbOdbc.ConfigAttributes
import DocumentDbOdbc.DiagnosticRecord
import DocumentDbOdbc.TimestampWire
import DocumentDbOdbc.ExtendedFetch
import DocumentDbOdbc.InputStreamCalls
import DocumentDbOdbc.StreamColumn
import DocumentDbOdbc.StreamColumnFacts
import DocumentDbOdbc.BufferInput
import DocumentDbOdbc.Parameter
import DocumentDbOdbc.ParameterRow
import DocumentDbOdbc.DataAtExec
import DocumentDbOdbc.ParameterHistory
import DocumentDbOdbc.Lib.Run
import DocumentDbOdbc.Lib.Slice
import DocumentDbOdbc.HandleRegistry
import DocumentDbOdbc.HandleRegistryFacts
import DocumentDbOdbc.HandleRegistryLife
import DocumentDbOdbc.TypeManager
import DocumentDbOdbc.TypeManagerFacts
import DocumentDbOdbc.TypeManagerNull
import DocumentDbOdbc.ObjectFormat
import DocumentDbOdbc.ObjectFormatFacts
import DocumentDbOdbc.ObjectLookup
import DocumentDbOdbc.Container
import DocumentDbOdbc.ContainerFacts
import DocumentDbOdbc.ContainerReading
import DocumentDbOdbc.ContainerWriting
import DocumentDbOdbc.DiagnosticRetrieval
