import Apartments.HyperPay.SentOnce
import Apartments.HyperPay.Forward
import Apartments.HyperPay.Checkout
import Apartments.HyperPay.Verified
import Apartments.Hostaway.CreateCalls
import Apartments.Hostaway.ChangeRequests
import Apartments.Hostaway.Truthful
import Apartments.Hostaway.OneRow
import Apartments.Hostaway.Answers
import Apartments.Hostaway.Refresh
import Apartments.Hostaway.SnapshotOrder
import Apartments.Hostaway.Deduplication
import Apartments.Reservations.Owed
import Apartments.Reservations.Undecided
import Apartments.Reservations.Completed
import Apartments.Reservations.Priced
import Apartments.Reservations.PaidChanges
import Apartments.Reservations.Revalidated
import Apartments.Reservations.RefundedOrBooked
import Apartments.Reservations.RecordedOnce
import Apartments.Loyalty.Holds
import Apartments.Loyalty.Retried
import Apartments.Loyalty.Rewards
import Apartments.Loyalty.FullyFunded
import Apartments.Reservations.FullRefund
import Apartments.Payments.Receipts
import Apartments.Payments.Collecting
import Apartments.Reservations.ManualBookings
import Apartments.Reservations.StayEnd
import Apartments.Notifications.UltraMsg
import Apartments.Notifications.Emails
import Apartments.Mornings.Outbox
import Apartments.Mornings.Handouts
import Apartments.Mornings.Instructions
import Apartments.Mornings.Accepted
import Apartments.Mornings.Attempts
import Apartments.Mornings.Exclusion
import Apartments.Mornings.Overnights
import Apartments.Hostaway.MissingListings
import Apartments.Loyalty.NoticesOnce
import Apartments.Accounts.Identity
import Apartments.Notifications.InvoicesOnce
import Apartments.Decimals
import Apartments.Payments.Currency
import Apartments.Lib.Forest
import Apartments.Lib.Traverse
import Apartments.Loyalty.Backup
import Apartments.Loyalty.BackupSound
import Apartments.Loyalty.Lineage
import Apartments.Payments.Snapshots
import Apartments.Reservations.FxSnapshots
import Apartments.Loyalty.Captured
import Apartments.Lib.Shares
import Apartments.Lib.Waterfall
import Apartments.Loyalty.Contract
import Apartments.Loyalty.EarlyDeparture
import Apartments.Loyalty.RefundPlans
import Apartments.Reservations.Availability
import Apartments.Reservations.EarliestStay
import Apartments.Reservations.OwnerSettlement
import Apartments.Loyalty.KeptMoney
import Apartments.Reservations.Sendable
import Apartments.Hostaway.FinanceFields
import Apartments.Hostaway.Gallery
import Apartments.Hostaway.Mirrored
import Apartments.Loyalty.Backupable
import Apartments.Reservations.GuestHistory
import Apartments.Reservations.OwnNights
import Apartments.Loyalty.InvitedOnce
import Apartments.Loyalty.Mirrors
import Apartments.Loyalty.MirrorsAgree
import Apartments.Loyalty.Nightly
import Apartments.Loyalty.ControllerSafe
import Apartments.Accounts.Recovered
import Apartments.Loyalty.GiftLimits
import Apartments.Loyalty.OffersOnce
import Apartments.Hostaway.Readable
