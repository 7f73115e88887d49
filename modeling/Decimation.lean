import Decimation.Bytes.Buffer
import Decimation.Cli.Actions
import Decimation.Cli.Command
import Decimation.Cli.Complete
import Decimation.Cli.Error
import Decimation.Cli.Execute
import Decimation.Cli.Files
import Decimation.Cli.Find
import Decimation.Cli.Flags
import Decimation.Codec.Compression
import Decimation.Codec.Copy
import Decimation.Codec.Lz4
import Decimation.Codec.Lz4Compress
import Decimation.Codec.Payload
import Decimation.Codec.S2
import Decimation.Codec.S2Compress
import Decimation.Codec.Varint
import Decimation.Codec.Zstd.BitWriter
import Decimation.Codec.Zstd.Bits
import Decimation.Codec.Zstd.Compress
import Decimation.Codec.Zstd.Distribution
import Decimation.Codec.Zstd.Error
import Decimation.Codec.Zstd.Frame
import Decimation.Codec.Zstd.Fse
import Decimation.Codec.Zstd.Huffman
import Decimation.Codec.Zstd.HuffmanCode
import Decimation.Codec.Zstd.MatchFinder
import Decimation.Codec.Zstd.Sequences
import Decimation.Codec.Zstd.StateCoder
import Decimation.Config.Basic
import Decimation.Config.Error
import Decimation.Config.File
import Decimation.Config.Names
import Decimation.Csv.Read
import Decimation.Csv.Table
import Decimation.Csv.Write
import Decimation.Decimal.Integer
import Decimation.Decimal.Layout
import Decimation.Decimal.Read
import Decimation.Decimal.Shortest
import Decimation.Downsampling
import Decimation.Transform
import Decimation.Error
import Decimation.Hash.XxHash64
import Decimation.Main
import Decimation.Options
import Decimation.Selection.Algorithm
import Decimation.Selection.Buckets
import Decimation.Selection.Error
import Decimation.Selection.Lttb
import Decimation.Selection.Nth
import Decimation.Selection.Select
import Decimation.Series.Column
import Decimation.Series.Frame
import Decimation.Series.Range
import Decimation.Snapshot.Basic
import Decimation.Snapshot.ByteOrder
import Decimation.Snapshot.Header
import Decimation.Snapshot.IndexEncoding
import Decimation.Snapshot.Payload
import Decimation.Snapshot.Stored
import Decimation.Snapshot.Summary
import Decimation.Text.Base64
import Decimation.Text.Blank
import Decimation.Text.Case
import Decimation.Text.Printable
import Decimation.Text.Quote
import Decimation.Text.Utf8
import Decimation.Word
import Decimation.Yaml.Decode
import Decimation.Yaml.Document
import Decimation.Yaml.Event
import Decimation.Yaml.Input
import Decimation.Yaml.Lexer
import Decimation.Yaml.Lexer.Fetch
import Decimation.Yaml.Lexer.Gap
import Decimation.Yaml.Lexer.Property
import Decimation.Yaml.Lexer.Scalar
import Decimation.Yaml.Node
import Decimation.Yaml.Resolve
import Decimation.Yaml.Timestamp
import Decimation.Yaml.Token
import Decimation.Proofs.Lttb
import Decimation.Proofs.FloatBits
import Decimation.Proofs.Varint
import Decimation.Proofs.Payload
import Decimation.Proofs.Except
import Decimation.Proofs.Stored
import Decimation.Proofs.Downsampling
import Decimation.Proofs.Decode
import Decimation.Proofs.Canonical
import Decimation.Proofs.Corruption
import Decimation.Proofs.RunOutputs
import Decimation.Proofs.Rounding
import Decimation.Proofs.Stride
import Decimation.Proofs.Transform
import Decimation.Proofs.NearestFloat
import Decimation.Proofs.FloatArith
import Decimation.Proofs.Offsets
import Decimation.Proofs.Spike
import Decimation.Proofs.ShortestDecimal
import Decimation.Proofs.FloatText
import Decimation.Proofs.FloatOrder
import Decimation.Proofs.Rows
import Decimation.Proofs.Options
import Decimation.Proofs.FloatSign
import Decimation.Proofs.Reflection
import Decimation.Proofs.Utf8
import Decimation.Proofs.CsvRecords
import Decimation.Proofs.CsvFrame
import Decimation.Proofs.Argmax
import Decimation.Proofs.FullWidth
import Decimation.Proofs.ConfigMerge
import Decimation.Proofs.Buffer
