import Decimation.Downsampling
/-!
# Changing a frame step by step

A frame goes through a sequence of operations, each applied to the frame the ones before it
left: keeping the rows whose x value lies in a range, keeping the rows at given indices, or
downsampling under the configuration built from a width and options. An operation that fails
leaves the frame as it was, and the sequence goes on from there.
-/

namespace Decimation

/-- One operation on a frame. -/
inductive FrameOp where
  /-- keep the rows whose x value lies in the range -/
  | sliceX (r : XRange)
  /-- keep the rows at the given indices, in the order given -/
  | selectRows (rows : List Int)
  /-- downsample under the configuration of a width and options -/
  | downsample (width : Int) (opts : List (Option ConfigOption))

namespace FrameOp

/-- The frame an operation gives, or nothing when it fails. -/
def outcome? : FrameOp → Frame → Option Frame
  | sliceX r, f => (f.sliceX r).toOption
  | selectRows rows, f => (f.selectRows rows).toOption
  | downsample w opts, f => (Decimation.downsample f w opts).toOption

/-- The frame after an operation; one that fails leaves the frame in place. -/
def step (op : FrameOp) (f : Frame) : Frame := (op.outcome? f).getD f

end FrameOp

/-- The frame after a sequence of operations, applied from the first. -/
def Frame.runOps (f : Frame) (ops : List FrameOp) : Frame :=
  ops.foldl (fun g op => op.step g) f

end Decimation
