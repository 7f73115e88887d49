import Decimation.Snapshot.Stored
/-!
# Summaries of stored snapshots

The summary of a stored snapshot is a block of labelled lines: the name, the format version,
the number of points, the kind of the y values, the byte order, the index encoding, the
compression with the raw and stored sizes and their ratio to three places, and the checksum;
for a snapshot with points, the first and last x value and the first and last row; and, when
asked for, one line `x,y,row` per point.
-/

namespace Decimation

/-- A labelled line of a summary; labels are padded to one width. -/
def summaryLine (label value : String) : String :=
  label ++ ":" ++ String.ofList (List.replicate (12 - label.length) ' ') ++ value ++ "\n"

/-- The summary lines of a header and the snapshot read with it. -/
def summaryText (h : Header) (s : Snapshot) (points : Bool) : String :=
  let head :=
    summaryLine "name" (Text.lossyText s.name.toList) ++
    summaryLine "version" (toString formatVersion.toNat) ++
    summaryLine "points" (toString h.count) ++
    summaryLine "y kind" (if h.boolY then "bool" else "float64") ++
    summaryLine "byte order" (if h.bigEndian then "big-endian" else "little-endian") ++
    summaryLine "indices" h.encoding.name ++
    summaryLine "compression" (Compression.codeName h.compression ++
      s!" ({h.rawLen} -> {h.storedLen} bytes, ratio " ++
      fixedText (compressionRatio h.rawLen h.storedLen) 3 ++ ")") ++
    summaryLine "checksum" (hex64 h.checksum)
  let n := s.xs.size
  let xs := s.xs.map Float64.toFloat
  let ys := s.ys.map Float64.toFloat
  let span :=
    if n = 0 then ""
    else
      summaryLine "x span" (floatText (xs.getD 0 0) ++ " .. " ++ floatText (xs.getD (n - 1) 0)) ++
      summaryLine "rows" (toString (s.rows.getD 0 0) ++ " .. " ++ toString (s.rows.getD (n - 1) 0))
  let pts :=
    if points then
      String.join ((List.range n).map fun i =>
        floatText (xs.getD i 0) ++ "," ++ floatText (ys.getD i 0) ++ "," ++
          toString (s.rows.getD i 0) ++ "\n")
    else ""
  head ++ span ++ pts

/-- The summary of stored snapshot bytes, or why they hold none. -/
def summarize (lib : Libraries) (data : ByteArray) (points : Bool) :
    Except DecodeError String := do
  let (h, s) ← Snapshot.decode lib data
  return summaryText h s points

end Decimation
