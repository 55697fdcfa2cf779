import Parley.Client.Rehearsal
import Parley.Link.Channel
import Parley.Main
import Parley.Meeting.Handshake
import Parley.Report.Session
import Parley.Session.CommandLine
import Parley.Session.Rehearsal
import Parley.Report.Frame
import Parley.Report.Media
import Parley.Proofs.Client.Turn
import Parley.Proofs.Client.Lines
import Parley.Proofs.Client.Speech
import Parley.Proofs.Rtp.Playout
import Parley.Proofs.Signaling.Attendance
import Parley.Proofs.Signaling.Ending
import Parley.Proofs.Signaling.SourceNews
import Parley.Proofs.Wire.RoundTrip
import Parley.Proofs.Wire.Frames
import Parley.Proofs.Rtp.Account
import Parley.Proofs.Pipeline.Accounts
import Parley.Proofs.Rtp.InOrder
import Parley.Proofs.Sdp.Formats
import Parley.Proofs.Signaling.Joins
import Parley.Proofs.Rtp.Chunks
import Parley.Proofs.Rtp.Passage
import Parley.Proofs.Pipeline.Apart
import Parley.Proofs.Rtp.Layout
import Parley.Proofs.Signaling.Dropped
import Parley.Proofs.Storage.Reading
import Parley.Proofs.Audio.Mixing
import Parley.Proofs.Audio.Thinning
import Parley.Proofs.Pipeline.Sending
import Parley.Proofs.Client.Outage
import Parley.Proofs.Client.Secrecy
import Parley.Proofs.Rtp.Reordering
import Parley.Proofs.Rtp.Parts
import Parley.Proofs.Rtp.Positions
import Parley.Proofs.Arith.Rounding
import Parley.Proofs.Audio.Line
import Parley.Proofs.Audio.Interpolation
import Parley.Proofs.Rtp.Books
import Parley.Proofs.Rtp.Losses
import Parley.Proofs.Rtp.Numbering
import Parley.Proofs.Pipeline.Recency
import Parley.Proofs.Signaling.Keepalive
import Parley.Proofs.Signaling.Openings
import Parley.Proofs.Signaling.Differences
import Parley.Proofs.Signaling.Listings
import Parley.Proofs.Signaling.Utterance
import Parley.Proofs.Signaling.Muting
import Parley.Proofs.Signaling.Reports
import Parley.Proofs.Signaling.MuteNews
import Parley.Proofs.Signaling.Levels
import Parley.Proofs.Sdp.FirstSection
import Parley.Proofs.Sdp.Offering
import Parley.Proofs.Storage.Keeping
import Parley.Proofs.Client.Schedule
import Parley.Proofs.Pipeline.Dispatch
import Parley.Proofs.Audio.Averages
import Parley.Proofs.Signaling.Naming
import Parley.Proofs.Text.Pattern
import Parley.Proofs.Pipeline.Alerts
import Parley.Proofs.Signaling.Limits
